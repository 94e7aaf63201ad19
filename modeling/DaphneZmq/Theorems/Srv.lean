import DaphneZmq.Srv
import DaphneZmq.Theorems.DevMemObject

/-! # The register server and its buffer

The terminator and the text go by the size that the library reports, which is the size of the message and not of what was
copied. Up to 255 bytes these are the same. -/

namespace DaphneZmq
open Lib.Wire (Bytes utf8)

namespace Srv

variable {host : Host} {devmem : DevMemObject} {z : ZmqRecv} {memory : Memory} {message : Bytes}

/-! ### The buffer -/

/-- Every index is in the buffer, and the text is the message. -/
structure Round.Whole (round : Round) : Prop where
  inBounds : ∀ i ∈ round.indices, i < kMaxRequestSize
  text : round.text = round.message

theorem receive_indices : (receive z memory message).1 = message.length :: List.range message.length := by
  simp only [receive, z.size]

theorem receive_text (h : message.length < kMaxRequestSize) : (receive z memory message).2.1 = message := by
  have hsize := z.size message (kMaxRequestSize - 1) memory
  refine List.ext_getElem (by simp [receive, hsize]) fun i hi hi' => ?_
  have hcopied := z.copied message (kMaxRequestSize - 1) memory i message[i] (by omega) (List.getElem?_eq_getElem hi')
  have hne : i ≠ message.length := by omega
  simp [receive, hsize, hcopied, hne]

theorem whole_receive_iff (reply : Bytes) :
    Round.Whole ⟨message, (receive z memory message).1, (receive z memory message).2.1, reply⟩ ↔ message.length < kMaxRequestSize := by
  constructor
  · intro h
    exact h.inBounds message.length (receive_indices ▸ List.mem_cons_self)
  · intro h
    refine ⟨fun i hi => ?_, receive_text h⟩
    rw [receive_indices, List.mem_cons, List.mem_range] at hi
    rcases hi with rfl | hi
    · exact h
    · exact Nat.lt_trans hi h

theorem mem_serve_message {events : List Received} {past : List Touch} {bytes : Bytes} {round : Round}
    (h : round ∈ serve host devmem z memory past (.message bytes :: events)) :
    (∃ reply, round = ⟨bytes, (receive z memory bytes).1, (receive z memory bytes).2.1, reply⟩) ∨
      ∃ past', round ∈ serve host devmem z (receive z memory bytes).2.2 past' events := by
  unfold serve at h
  simp only at h
  split at h
  · rename_i reply past' _
    rcases List.mem_cons.mp h with rfl | h
    · exact Or.inl ⟨reply, rfl⟩
    · exact Or.inr ⟨past', h⟩
  · cases h

/-- In every run, each message is received whole and within the buffer exactly when it has at most 255 bytes. -/
theorem serve_whole_iff (host : Host) (devmem : DevMemObject) (z : ZmqRecv) (events : List Received) :
    ∀ (memory : Memory) (past : List Touch), ∀ round ∈ serve host devmem z memory past events,
      round.Whole ↔ round.message.length ≤ 255 := by
  induction events with
  | nil =>
    intro memory past round h
    cases h
  | cons event events ih =>
    intro memory past round h
    cases event with
    | failed error => cases h
    | interrupted => exact ih memory past round h
    | message bytes =>
      rcases mem_serve_message h with ⟨reply, rfl⟩ | ⟨past', h⟩
      · exact (whole_receive_iff reply).trans Nat.lt_succ_iff
      · exact ih _ past' round h

theorem replyOf_ok (host : Host) (devmem : DevMemObject) (text : Bytes) (past : List Touch) :
    ∃ reply past', replyOf host devmem text past = .ok reply past' := by
  simp only [replyOf, tryCatch, tryCatchThe, MonadExceptOf.tryCatch, EStateM.tryCatch]
  cases handleRequest host devmem text past with
  | ok reply past' => exact ⟨reply, past', rfl⟩
  | error what past' => exact ⟨_, past', rfl⟩

/-- A message that comes first has a round, and with it a reply. -/
theorem first_mem_serve (host : Host) (devmem : DevMemObject) (z : ZmqRecv) (memory : Memory) (past : List Touch) (bytes : Bytes)
    (events : List Received) : ∃ reply, ⟨bytes, (receive z memory bytes).1, (receive z memory bytes).2.1, reply⟩ ∈
      serve host devmem z memory past (.message bytes :: events) := by
  obtain ⟨reply, past', hreply⟩ := replyOf_ok host devmem (receive z memory bytes).2.1 past
  refine ⟨reply, ?_⟩
  unfold serve
  simp only [hreply]
  exact List.mem_cons_self

/-- `zmq_recv` as its manual has it. -/
def manualRecv : ZmqRecv where
  recv message len memory := (message.length, fun i => if i < len then (message[i]?).getD (memory i) else memory i)
  size _ _ _ := rfl
  copied message len memory i b hi hb := by simp [hi, hb]
  kept message len memory i hi := by
    have : i < len → message[i]? = none := fun hlen => List.getElem?_eq_none (by omega)
    by_cases hlen : i < len <;> simp [hlen, this]

/-- A message of 256 bytes is terminated behind the buffer. -/
theorem blanks_not_whole : ¬∀ (z : ZmqRecv) (events : List Received) (memory : Memory),
    ∀ round ∈ serve DevMemObject.smallPages (window DevMemObject.smallPages) z memory [] events, round.Whole := by
  intro h
  obtain ⟨reply, hmem⟩ := first_mem_serve DevMemObject.smallPages (window DevMemObject.smallPages)
    manualRecv (fun _ => 0) [] (List.replicate 256 0x20) []
  have hlt := (whole_receive_iff reply).mp (h manualRecv _ _ _ hmem)
  rw [List.length_replicate] at hlt
  exact absurd hlt (by decide)

/-- A short message. -/
theorem read_whole : ∃ round ∈ serve DevMemObject.smallPages (window DevMemObject.smallPages)
    manualRecv (fun _ => 0) [] [.message (utf8 "read 0")], round.Whole ∧ round.message.length ≤ 255 := by
  obtain ⟨reply, hmem⟩ := first_mem_serve DevMemObject.smallPages (window DevMemObject.smallPages)
    manualRecv (fun _ => 0) [] (utf8 "read 0") []
  have hiff := serve_whole_iff _ _ manualRecv [.message (utf8 "read 0")] _ _ _ hmem
  have hle : (utf8 "read 0").length ≤ 255 := by decide
  exact ⟨_, hmem, hiff.mpr hle, hle⟩

/-! ### The registers -/

/-- However the program ends, it has touched words in the mapped region only. -/
def Confined {ε α : Type} (o : DevMemObject) (m : EStateM ε (List Touch) α) : Prop :=
  ∀ past t, (∃ x, m past = .ok x t) ∨ (∃ e, m past = .error e t) →
    ∃ new, t = past ++ new ∧ ∀ touch ∈ new, o.Inside touch.mem touch.index

section Confined
variable {ε α β : Type} {o : DevMemObject}

theorem confined_pure (a : α) : Confined o (pure a : EStateM ε (List Touch) α) := by
  rintro past t (⟨x, h⟩ | ⟨e, h⟩) <;> cases h
  exact ⟨[], by simp, by simp⟩

theorem confined_throw (e : ε) : Confined o (throw e : EStateM ε (List Touch) α) := by
  rintro past t (⟨x, h⟩ | ⟨e, h⟩) <;> cases h
  exact ⟨[], by simp, by simp⟩

theorem confined_bind {m : EStateM ε (List Touch) α} {f : α → EStateM ε (List Touch) β} (hm : Confined o m)
    (hf : ∀ a, Confined o (f a)) : Confined o (m >>= f) := by
  intro past t h
  simp only [bind, EStateM.bind] at h
  cases hrun : m past with
  | error e u =>
    rw [hrun] at h
    obtain rfl : u = t := by
      rcases h with ⟨x, h⟩ | ⟨e, h⟩ <;> cases h
      rfl
    exact hm past u (Or.inr ⟨e, hrun⟩)
  | ok a u =>
    rw [hrun] at h
    obtain ⟨new, rfl, hnew⟩ := hm past u (Or.inl ⟨a, hrun⟩)
    obtain ⟨new', rfl, hnew'⟩ := hf a _ t h
    exact ⟨new ++ new', List.append_assoc past new new', fun touch htouch => (List.mem_append.mp htouch).elim (hnew touch) (hnew' touch)⟩

theorem confined_tryCatch {m : EStateM ε (List Touch) α} {f : ε → EStateM ε (List Touch) α} (hm : Confined o m)
    (hf : ∀ e, Confined o (f e)) : Confined o (tryCatch m f) := by
  intro past t h
  simp only [tryCatch, tryCatchThe, MonadExceptOf.tryCatch, EStateM.tryCatch] at h
  cases hrun : m past with
  | ok a u =>
    rw [hrun] at h
    obtain rfl : u = t := by
      rcases h with ⟨x, h⟩ | ⟨e, h⟩ <;> cases h
      rfl
    exact hm past u (Or.inl ⟨a, hrun⟩)
  | error e u =>
    rw [hrun] at h
    obtain ⟨new, rfl, hnew⟩ := hm past u (Or.inr ⟨e, hrun⟩)
    obtain ⟨new', rfl, hnew'⟩ := hf e _ t h
    exact ⟨new ++ new', List.append_assoc past new new', fun touch htouch => (List.mem_append.mp htouch).elim (hnew touch) (hnew' touch)⟩

theorem confined_bytesOf {m : EStateM String (List Touch) α} (hm : Confined o m) : Confined o (bytesOf m) := by
  intro past t h
  simp only [bytesOf, EStateM.adaptExcept] at h
  cases hrun : m past with
  | ok a u =>
    rw [hrun] at h
    obtain rfl : u = t := by
      rcases h with ⟨x, h⟩ | ⟨e, h⟩ <;> cases h
      rfl
    exact hm past u (Or.inl ⟨a, hrun⟩)
  | error e u =>
    rw [hrun] at h
    obtain rfl : u = t := by
      rcases h with ⟨x, h⟩ | ⟨e, h⟩ <;> cases h
      rfl
    exact hm past u (Or.inr ⟨e, hrun⟩)

end Confined

theorem window_contained (hpage : host.pageBits ≤ 30) {a : DevMemObject.Access} (hend : a.offset.toNat + 4 * a.count < 2 ^ 64) :
    DevMemObject.Contained host (window host) a := by
  refine (DevMemObject.contained_iff_fits (DevMemObject.describes_afterCalls host kAxiBaseAddr _) a).mpr (DevMemObject.fits_of_page ?_ hend)
  have hdvd : 2 ^ host.pageBits ∣ kAxiBaseAddr.toNat := Nat.pow_dvd_pow 2 hpage
  have hoffset := DevMemObject.toNat_create_offset host kAxiBaseAddr
  rw [Nat.mod_eq_zero_of_dvd hdvd] at hoffset
  exact (DevMemObject.offset_mapMemory none kAxiWindowSize).trans (UInt64.toNat_inj.mp hoffset)

theorem confined_access (hpage : host.pageBits ≤ 30) {a : DevMemObject.Access} (hend : a.offset.toNat + 4 * a.count < 2 ^ 64) :
    Confined (window host) (a.run host (window host)) := by
  rintro past t (⟨x, h⟩ | h)
  · exact (window_contained hpage hend).inside past t (Or.inl h)
  · exact (window_contained hpage hend).inside past t (Or.inr h)

theorem confined_writeU32 (hpage : host.pageBits ≤ 30) (offset value : UInt32) :
    Confined (window host) ((window host).writeU32 offset.toUInt64 value) := by
  refine confined_access (a := .writeU32 offset.toUInt64 value) hpage ?_
  have := offset.toNat_lt
  simp only [DevMemObject.Access.offset, DevMemObject.Access.count, UInt32.toNat_toUInt64]
  omega

theorem confined_readU32 (hpage : host.pageBits ≤ 30) (offset : UInt32) :
    Confined (window host) ((window host).readU32 host offset.toUInt64) := by
  have hconfined : Confined (window host) (DevMemObject.Access.run host (window host) (.readU32 offset.toUInt64)) := by
    refine confined_access hpage ?_
    have := offset.toNat_lt
    simp only [DevMemObject.Access.offset, DevMemObject.Access.count, UInt32.toNat_toUInt64]
    omega
  intro past t h
  refine hconfined past t ?_
  simp only [DevMemObject.Access.run, bind, EStateM.bind, pure, EStateM.pure]
  rcases h with ⟨x, h⟩ | ⟨e, h⟩
  · exact Or.inl ⟨(), by rw [h]⟩
  · exact Or.inr ⟨e, by rw [h]⟩

theorem confined_liftExcept {α : Type} {o : DevMemObject} (r : Except Bytes α) : Confined o (handleRequest.liftExcept r) := by
  cases r with
  | ok a => exact confined_pure a
  | error e => exact confined_throw e

/-- Whatever a command says, the server touches registers in its window only. -/
theorem confined_handleRequest (hpage : host.pageBits ≤ 30) (request : Bytes) :
    Confined (window host) (handleRequest host (window host) request) := by
  unfold handleRequest
  split
  · exact confined_pure _
  split
  · exact confined_pure _
  split
  · exact confined_pure _
  refine confined_bind (confined_liftExcept _) fun offset => ?_
  split
  · split
    · exact confined_pure _
    refine confined_bind (confined_liftExcept _) fun value => ?_
    refine confined_bind (confined_bytesOf (confined_writeU32 hpage offset value)) fun _ => ?_
    refine confined_bind (confined_bytesOf (confined_readU32 hpage offset)) fun readBack => ?_
    split <;> exact confined_pure _
  split
  · exact confined_bind (confined_bytesOf (confined_readU32 hpage offset)) fun data => confined_pure _
  · exact confined_pure _

theorem confined_replyOf (hpage : host.pageBits ≤ 30) (text : Bytes) : Confined (window host) (replyOf host (window host) text) :=
  confined_tryCatch (confined_handleRequest hpage text) fun _ => confined_pure _

end Srv
end DaphneZmq
