import DaphneZmq.AxiQuadSpi

/-! What a transfer of the SPI core adds to the trace of its registers, whatever these give: in front of the select all bytes are
queued, after it the bytes are the words of the receive FIFO at the status reads that found it not empty, and at the end the core
is idle, also if the transfer times out. -/

namespace DaphneZmq.AxiQuadSpi
open Lib Lib.Trace Cmspi

/-! ### Traces -/

/-- The byte of the word that is read from the receive FIFO first of all. -/
def nextByte : List SpiAccess → List UInt8
  | .read .DRR word :: _ => [rxByte word]
  | _ => []

/-- The bytes that are read at the status reads that show a receive FIFO that is not empty, in order. -/
def received : List SpiAccess → List UInt8
  | .read .SPISR status :: l => if status &&& SR_RX_EMPTY = 0 then nextByte l ++ received l else received l
  | _ :: l => received l
  | [] => []

def statusReads : List SpiAccess → Nat
  | .read .SPISR _ :: l => statusReads l + 1
  | _ :: l => statusReads l
  | [] => 0

theorem received_read_DRR (word : UInt32) (l : List SpiAccess) : received (.read .DRR word :: l) = received l := rfl

theorem statusReads_read_DRR (word : UInt32) (l : List SpiAccess) : statusReads (.read .DRR word :: l) = statusReads l := rfl

/-- The last words leave the transfer inhibited and no slave selected. -/
structure Idle (l : List SpiAccess) : Prop where
  inhibited : ∃ w, (words .SPICR l).getLast? = some w ∧ w &&& CR_INHIBIT ≠ 0
  deselected : (words .SPISSR l).getLast? = some noSlave

/-- What is done before and after the slave is selected, to send `tx` and receive `rx`. -/
structure Selected (tx rx : List UInt8) (before after : List SpiAccess) : Prop where
  queued : words .DTR before = tx.map UInt8.toUInt32
  queued_after : words .DTR after = []
  selected_before : ∀ w ∈ words .SPISSR before, w = noSlave
  selected_after : ∀ w ∈ words .SPISSR after, w = noSlave
  received : received after = rx
  statusReads : statusReads after ≤ tx.length + 2001
  idle : Idle after

/-- The accesses of a transfer, which has none if it has nothing to send. -/
def Exchange (tx rx : List UInt8) (l : List SpiAccess) : Prop :=
  tx = [] ∧ rx = [] ∧ l = [] ∨
    tx ≠ [] ∧ ∃ before w after, l = before ++ .write .SPISSR w :: after ∧ w ≠ noSlave ∧ Selected tx rx before after

/-- The accesses at the end of a transfer. -/
def release : List SpiAccess := [.write .SPICR idle_cr, .write .SPISSR noSlave]

theorem idle_release (l : List SpiAccess) : Idle (l ++ release) := by
  constructor
  · refine ⟨idle_cr, ?_, by decide⟩
    rw [words_append, show words .SPICR release = [idle_cr] by decide, List.getLast?_concat]
  · rw [words_append, show words .SPISSR release = [noSlave] by decide, List.getLast?_concat]

theorem Idle.append {l : List SpiAccess} (h : Idle l) (past : List SpiAccess) : Idle (past ++ l) := by
  obtain ⟨⟨w, hw, hinhibit⟩, hselect⟩ := h
  refine ⟨⟨w, ?_, hinhibit⟩, ?_⟩
  · rw [words_append, List.getLast?_append, hw]
    rfl
  · rw [words_append, List.getLast?_append, hselect]
    rfl

/-! ### The loop -/

/-- Rounds that add the accesses and take the bytes. -/
inductive Polls : List SpiAccess → List UInt8 → Prop where
  | nil : Polls [] []
  | empty {status : UInt32} {l : List SpiAccess} {rx : List UInt8} (hstatus : status &&& SR_RX_EMPTY ≠ 0) (h : Polls l rx) :
      Polls (.read .SPISR status :: l) rx
  | byte {status : UInt32} (word : UInt32) {l : List SpiAccess} {rx : List UInt8} (hstatus : status &&& SR_RX_EMPTY = 0) (h : Polls l rx) :
      Polls (.read .SPISR status :: .read .DRR word :: l) (rxByte word :: rx)

namespace Polls
variable {l : List SpiAccess} {rx : List UInt8}

theorem words_eq (h : Polls l rx) (register : Register) : words register l = [] := by
  induction h with
  | nil => rfl
  | empty _ _ ih => exact ih
  | byte _ _ _ ih => exact ih

theorem received_append (h : Polls l rx) (l' : List SpiAccess) : received (l ++ l') = rx ++ received l' := by
  induction h with
  | nil => rfl
  | empty hstatus _ ih =>
    rw [List.cons_append, received, if_neg hstatus, ih]
  | byte word hstatus _ ih =>
    rw [List.cons_append, received, if_pos hstatus, List.cons_append, received_read_DRR, ih]
    rfl

theorem statusReads_append (h : Polls l rx) (l' : List SpiAccess) : statusReads (l ++ l') = statusReads l + statusReads l' := by
  induction h with
  | nil => exact (Nat.zero_add _).symm
  | empty _ _ ih =>
    rw [List.cons_append, statusReads, statusReads, ih, Nat.add_right_comm]
  | byte _ _ _ ih =>
    rw [List.cons_append, List.cons_append, statusReads, statusReads, statusReads_read_DRR, statusReads_read_DRR, ih,
      Nat.add_right_comm]

end Polls

variable {spi : AxiQuadSpi} {env : SpiEnv}

theorem pollLoop_of_not_lt {deadline size : Nat} {rx : List UInt8} (h : ¬rx.length < size) (s : SpiState) :
    spi.pollLoop env deadline size rx s = .ok rx s := by
  rw [pollLoop, dif_neg h]

theorem pollLoop_of_lt {deadline size : Nat} {rx : List UInt8} (h : rx.length < size) (s : SpiState) :
    spi.pollLoop env deadline size rx s = (spi.pollRound env deadline rx >>= spi.pollLoop env deadline size) s := by
  rw [pollLoop, dif_pos h]
  split
  · rename_i hrun
    rw [Device.bind_ok hrun]
  · rename_i hrun
    rw [Device.bind_error hrun]

/-- The loop adds rounds until it has the bytes, or releases the core after the deadline. -/
theorem adds_pollLoop {deadline size : Nat} (n : Nat) : ∀ (rx : List UInt8) (s : SpiState), rx.length ≤ size →
    size - rx.length + roundsLeft deadline s.time = n →
    Adds (spi.pollLoop env deadline size rx)
      (fun rx' l _ => ∃ bytes, Polls l bytes ∧ rx' = rx ++ bytes ∧ rx'.length = size ∧ statusReads l ≤ n)
      (fun e l _ => e = timedOut ∧ ∃ polls bytes, l = polls ++ release ∧ Polls polls bytes ∧
        rx.length + bytes.length < size ∧ statusReads polls ≤ n) s := by
  induction n using Nat.strong_induction_on with
  | _ n ih =>
    intro rx s hle hn
    by_cases hsize : rx.length < size
    · refine .of_eq (pollLoop_of_lt hsize s) ?_
      rcases pollRound_cases spi env deadline rx s with
        ⟨status, word, hstatus, hrun⟩ | ⟨status, time, hstatus, hearly, htime, hrun⟩ | ⟨status, time, hstatus, hlate, hrun⟩
      · have hdecreases := pollRound_decreases hsize hrun
        rw [hn] at hdecreases
        have hlength : (rx ++ [rxByte word]).length ≤ size := by
          rw [List.length_append, List.length_singleton]
          exact hsize
        refine .of_ok hrun rfl ((ih _ hdecreases _ _ hlength rfl).mono ?_ ?_)
        · rintro rx' l t ⟨bytes, hpolls, rfl, hall, hreads⟩
          refine ⟨rxByte word :: bytes, .byte word hstatus hpolls, ?_, hall, ?_⟩
          · rw [List.append_assoc]
            rfl
          · exact Nat.lt_of_le_of_lt hreads hdecreases
        · rintro e l t ⟨rfl, polls, bytes, rfl, hpolls, hshort, hreads⟩
          refine ⟨rfl, _, _, rfl, .byte word hstatus hpolls, ?_, Nat.lt_of_le_of_lt hreads hdecreases⟩
          rw [List.length_append, List.length_singleton] at hshort
          rw [List.length_cons]
          omega
      · have hdecreases := pollRound_decreases hsize hrun
        rw [hn] at hdecreases
        refine .of_ok hrun rfl ((ih _ hdecreases _ _ hle rfl).mono ?_ ?_)
        · rintro rx' l t ⟨bytes, hpolls, rfl, hall, hreads⟩
          exact ⟨bytes, .empty hstatus hpolls, rfl, hall, Nat.lt_of_le_of_lt hreads hdecreases⟩
        · rintro e l t ⟨rfl, polls, bytes, rfl, hpolls, hshort, hreads⟩
          exact ⟨rfl, _, _, rfl, .empty hstatus hpolls, hshort, Nat.lt_of_le_of_lt hreads hdecreases⟩
      · refine adds_of_error (Device.bind_error hrun) (List.append_assoc ..) ⟨rfl, _, [], rfl, .empty hstatus .nil, hsize, ?_⟩
        exact Nat.succ_le_of_lt (Nat.lt_of_lt_of_le (Nat.sub_pos_of_lt hsize) (hn ▸ Nat.le_add_right ..))
    · refine .of_eq (pollLoop_of_not_lt hsize s) ?_
      exact adds_pure ⟨[], .nil, (List.append_nil _).symm, Nat.le_antisymm hle (Nat.le_of_not_lt hsize), Nat.zero_le _⟩

/-! ### Transfers -/

theorem adds_drainRounds (i : Nat) (s : SpiState) :
    Adds (spi.drainRounds env i) (fun _ l _ => ∀ access ∈ l, ∃ register word, access = .read register word) (fun _ _ _ => False) s := by
  induction i generalizing s with
  | zero => exact adds_pure fun _ hmem => nomatch hmem
  | succ i ih =>
    unfold drainRounds
    rw [read_u32_eq, read_u32_eq]
    refine .of_ok rfl rfl ?_
    split
    · refine adds_pure fun access hmem => ?_
      exact ⟨_, _, List.mem_singleton.mp hmem⟩
    · refine .of_ok rfl rfl ((ih _).mono ?_ nofun)
      rintro _ l t hreads access hmem
      rcases List.mem_cons.mp hmem with rfl | hmem
      · exact ⟨_, _, rfl⟩
      rcases List.mem_cons.mp hmem with rfl | hmem
      · exact ⟨_, _, rfl⟩
      · exact hreads access hmem

theorem adds_queue (tx : List UInt8) (s : SpiState) : Adds (tx.forM fun b => write .DTR b.toUInt32)
    (fun _ l _ => l = tx.map fun b => .write .DTR b.toUInt32) (fun _ _ _ => False) s := by
  induction tx generalizing s with
  | nil => exact adds_pure rfl
  | cons b tx ih =>
    show Adds (write .DTR b.toUInt32 >>= fun _ => tx.forM fun b => write .DTR b.toUInt32) _ _ s
    refine .of_ok rfl rfl ((ih _).mono ?_ nofun)
    rintro _ l t rfl
    rfl

theorem words_queue (register : Register) (tx : List UInt8) : words register (tx.map fun b => (.write .DTR b.toUInt32 : SpiAccess)) =
    if .DTR = register then tx.map UInt8.toUInt32 else [] := by
  induction tx with
  | nil => exact (ite_self []).symm
  | cons b tx ih =>
    rw [List.map_cons, words_cons_write, ih]
    split <;> rfl

/-- What is done after the select, with the rounds of the loop. -/
theorem selected {tx rx : List UInt8} {drained polls : List SpiAccess} (hdrained : ∀ access ∈ drained, ∃ register word, access = .read register word)
    (hpolls : Polls polls rx) (hreads : statusReads polls ≤ tx.length + 2001) :
    Selected tx rx
      ([.write .SPISSR noSlave, .write .SPICR (idle_cr ||| CR_TXFIFO_RESET ||| CR_RXFIFO_RESET), .write .SPICR idle_cr] ++ drained ++
        tx.map fun b => .write .DTR b.toUInt32)
      (.write .SPICR base_cr :: (polls ++ release)) where
  queued := by simp [words_of_reads hdrained, words_queue]
  queued_after := by simp [hpolls.words_eq, release]
  selected_before := by simp [words_of_reads hdrained, words_queue]
  selected_after := by simp [hpolls.words_eq, release]
  received := (hpolls.received_append release).trans (List.append_nil rx)
  statusReads := (hpolls.statusReads_append release).trans_le hreads
  idle := idle_release (.write .SPICR base_cr :: polls)

/-- A transfer with something to send. -/
theorem adds_transfer {tx : List UInt8} (htx : tx ≠ []) (s : SpiState) : Adds (spi.transfer env tx)
    (fun rx l _ => rx.length = tx.length ∧ Exchange tx rx l)
    (fun e l _ => e = timedOut ∧ ∃ rx, rx.length < tx.length ∧ Exchange tx rx l) s := by
  unfold transfer
  rw [if_neg htx]
  simp only [write_u32_eq]
  refine .of_ok rfl rfl (.of_ok rfl rfl (.of_ok rfl rfl ?_))
  refine (adds_drainRounds 64 _).bind (fun _ drained t hdrained => ?_) nofun
  refine (adds_queue tx t).bind (fun _ l u hqueue => ?_) nofun
  subst hqueue
  refine .of_ok rfl rfl (.of_ok rfl rfl (.of_ok rfl (List.append_nil _).symm ?_))
  have hselect : (0xFFFFFFFE : UInt32) ≠ noSlave := by decide
  have hrounds (time : Nat) : tx.length - ([] : List UInt8).length + roundsLeft (time + 100_000_000) time = tx.length + 2001 := by
    unfold roundsLeft
    rw [List.length_nil]
    omega
  refine (adds_pollLoop (tx.length + 2001) [] _ (Nat.zero_le _) ?_).bind ?_ ?_
  · exact hrounds _
  · rintro rx polls v ⟨bytes, hpolls, rfl, hlength, hreads⟩
    refine .of_ok rfl rfl (.of_ok rfl rfl (adds_pure ⟨hlength, Or.inr ⟨htx, _, _, _, ?_, hselect, selected hdrained hpolls hreads⟩⟩))
    simp [release]
  · rintro e l v ⟨rfl, polls, bytes, rfl, hpolls, hshort, hreads⟩
    refine ⟨rfl, bytes, by simpa using hshort, Or.inr ⟨htx, _, _, _, ?_, hselect, selected hdrained hpolls hreads⟩⟩
    simp

theorem adds_create (fails : Option String) (base : Nat) (s : SpiState) :
    Adds (create fails base) (fun _ l _ => Idle l) (fun e l _ => fails = some e ∧ l = []) s := by
  cases fails with
  | some e => exact adds_of_error rfl (List.append_nil _).symm ⟨rfl, rfl⟩
  | none =>
    show Adds ((mapped base).reset_core >>= fun _ => return mapped base) _ _ s
    unfold reset_core
    simp only [write_u32_eq, bind_assoc]
    refine .of_ok rfl rfl (.of_ok rfl (List.append_nil _).symm (.of_ok rfl rfl (.of_ok rfl rfl (.of_ok rfl rfl ?_))))
    exact adds_pure ⟨⟨base_cr ||| CR_INHIBIT, rfl, by decide⟩, rfl⟩

/-- The object after its construction and any transfers, which may time out. -/
inductive Reached (env : SpiEnv) : AxiQuadSpi → SpiState → Prop where
  | created {s t : SpiState} {spi : AxiQuadSpi} (fails : Option String) (base : Nat) (h : create fails base s = .ok spi t) :
      Reached env spi t
  | returned {spi : AxiQuadSpi} {s t : SpiState} {tx rx : List UInt8} (hs : Reached env spi s)
      (h : spi.transfer env tx s = .ok rx t) : Reached env spi t
  | threw {spi : AxiQuadSpi} {s t : SpiState} {tx : List UInt8} {e : String} (hs : Reached env spi s)
      (h : spi.transfer env tx s = .error e t) : Reached env spi t

theorem Exchange.idle {tx rx : List UInt8} {l past : List SpiAccess} (h : Exchange tx rx l) (hpast : Idle past) : Idle (past ++ l) := by
  rcases h with ⟨-, -, rfl⟩ | ⟨-, before, w, after, rfl, -, hselected⟩
  · rwa [List.append_nil]
  · have hidle := hselected.idle.append (past ++ before ++ [.write .SPISSR w])
    simpa using hidle

/-- Whatever the registers give, a transfer returns as many bytes as it sends or throws the timeout, with an exchange in either
case. Between the transfers the core is idle. -/
theorem transfer_spec (env : SpiEnv) :
    (∀ (spi : AxiQuadSpi) (tx : List UInt8) (s : SpiState), Adds (spi.transfer env tx)
      (fun rx l _ => rx.length = tx.length ∧ Exchange tx rx l)
      (fun e l _ => e = timedOut ∧ ∃ rx, rx.length < tx.length ∧ Exchange tx rx l) s) ∧
    ∀ spi s, Reached env spi s → Idle s.trace := by
  have htransfer (spi : AxiQuadSpi) (tx : List UInt8) (s : SpiState) : Adds (spi.transfer env tx)
      (fun rx l _ => rx.length = tx.length ∧ Exchange tx rx l)
      (fun e l _ => e = timedOut ∧ ∃ rx, rx.length < tx.length ∧ Exchange tx rx l) s := by
    by_cases htx : tx = []
    · subst htx
      exact adds_pure ⟨rfl, Or.inl ⟨rfl, rfl, rfl⟩⟩
    · exact adds_transfer htx s
  refine ⟨htransfer, fun spi s h => ?_⟩
  induction h with
  | @created s t spi fails base h =>
    obtain ⟨l, ht, hidle⟩ := (adds_create fails base s).ok h
    rw [ht]
    exact hidle.append s.trace
  | @returned spi s t tx rx _ h ih =>
    obtain ⟨l, ht, -, hexchange⟩ := (htransfer spi tx s).ok h
    rw [ht]
    exact hexchange.idle ih
  | @threw spi s t tx e _ h ih =>
    obtain ⟨l, ht, -, rx, -, hexchange⟩ := (htransfer spi tx s).error h
    rw [ht]
    exact hexchange.idle ih

/-- A core that never receives anything. -/
def silent : SpiEnv where
  answer _ _ := SR_RX_EMPTY
  passes _ := 0

theorem transfer_spec_created : ∃ t, create none 0x9C020000 ⟨[], 0, 0⟩ = .ok (mapped 0x9C020000) t ∧ Idle t.trace :=
  ⟨_, rfl, (transfer_spec silent).2 _ _ (.created none 0x9C020000 rfl)⟩

end DaphneZmq.AxiQuadSpi
