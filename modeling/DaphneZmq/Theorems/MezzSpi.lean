import DaphneZmq.MezzSpi
import Mathlib.Data.List.Basic
import Mathlib.Tactic.Ring

/-! A transfer of the mezzanines' SPI master as it is seen on the lines: an exchange of bits for each byte while the chip is
selected, with the lines idle around it. -/

namespace DaphneZmq.MezzSpi
open Lib Lib.Lines

variable {d : DaphneMezzSpi} {miso : List (Event Line) → Bool} {trace : List (Event Line)}

/-! ### The lines -/

theorem adds_daphneDelayNs (nsecs : UInt32) :
    Adds miso (daphneDelayNs nsecs) trace fun _ events => ∃ ns, Pauses ns events := by
  rw [daphneDelayNs]
  split
  · split
    · exact adds_pause ⟨_, Pauses.singleton _⟩
    · exact adds_pause ⟨_, Pauses.singleton _⟩
  · exact adds_pure ⟨_, Pauses.nil⟩

@[simp] theorem after_drive_sck (a b c x : Bool) : (Event.drive Line.sck x).after (levels a b c) = levels x b c := by
  funext line
  cases line <;> rfl

@[simp] theorem after_drive_mosi (a b c x : Bool) : (Event.drive Line.mosi x).after (levels a b c) = levels a x c := by
  funext line
  cases line <;> rfl

@[simp] theorem after_drive_cs (a b c x : Bool) : (Event.drive Line.cs x).after (levels a b c) = levels a b x := by
  funext line
  cases line <;> rfl

@[simp] theorem levels_select (a b c : Bool) : levels a b c (bus d).select = c := rfl

@[simp] theorem selected_levels (a b c : Bool) : (bus d).selected (levels a b c) = (c == d.cs_active_high) := rfl

@[simp] theorem tick_sck (a b c x : Bool) : (bus d).tick (levels a b c) (.drive .sck x) =
    if x = a then none else some (if x then .rise b else .fall) := rfl

@[simp] theorem tick_mosi (a b c x : Bool) : (bus d).tick (levels a b c) (.drive .mosi x) = some (.data x) := rfl

@[simp] theorem tick_cs (a b c x : Bool) : (bus d).tick (levels a b c) (.drive .cs x) = none := rfl

@[simp] theorem tick_sample (a b c x : Bool) : (bus d).tick (levels a b c) (.sample x) = some (.sample x b) := rfl

/-- Events while the chip stays selected, SCK being low before and after them, and MOSI at `data` and then at `data'`. -/
structure Exchange (d : DaphneMezzSpi) (data : Bool) (events : List (Event Line)) (data' : Bool) (ticks : List Tick) : Prop where
  after : after (levels false data d.cs_active_high) events = levels false data' d.cs_active_high
  selects : edges (bus d).select (levels false data d.cs_active_high) events = []
  inside : ∀ t, ((bus d).wave true (levels false data d.cs_active_high) t events).map Prod.snd = ticks
  outside : ∀ t, (bus d).wave false (levels false data d.cs_active_high) t events = []

theorem Exchange.append {data data' data'' : Bool} {a b : List (Event Line)} {ticks ticks' : List Tick}
    (ha : Exchange d data a data' ticks) (hb : Exchange d data' b data'' ticks') :
    Exchange d data (a ++ b) data'' (ticks ++ ticks') where
  after := by rw [after_append, ha.after, hb.after]
  selects := by rw [edges_append, ha.after, ha.selects, hb.selects, List.append_nil]
  inside t := by rw [Bus.wave_append, ha.after, List.map_append, ha.inside, hb.inside]
  outside t := by rw [Bus.wave_append, ha.after, ha.outside, hb.outside, List.append_nil]

theorem exchange_nil (data : Bool) : Exchange d data [] data [] := ⟨rfl, rfl, fun _ => rfl, fun _ => rfl⟩

/-! ### A bit -/

/-- MOSI before a bit: without the line its level is the idle one. -/
theorem adds_driveMosi {data : Bool} (hdata : d.mosi = true ∨ data = false) (level : Bool) :
    Adds miso (driveMosi d level) trace fun _ events =>
      Exchange d data events (d.mosi && level) (if d.mosi then [.data level] else []) := by
  rw [driveMosi]
  cases hmosi : d.mosi
  · rw [hmosi] at hdata
    obtain rfl : data = false := hdata.resolve_left Bool.false_ne_true
    exact adds_pure (exchange_nil false)
  · refine adds_drive ?_
    constructor <;> simp

theorem adds_transferBit (txByte rxByte : UInt8) (bit : Nat) {data : Bool} (hdata : d.mosi = true ∨ data = false) :
    Adds miso (transferBit d miso txByte rxByte bit) trace fun rxByte' events => ∃ level : Bool,
      (d.miso = true ∨ level = false) ∧
      rxByte' = (if level then rxByte ||| ((1 : UInt8) <<< UInt8.ofNat bit) else rxByte) ∧
      Exchange d data events (d.mosi && txByte.toBitVec.getLsbD bit) (bitTicks d (txByte.toBitVec.getLsbD bit) level) := by
  generalize hout : (d.mosi && txByte.toBitVec.getLsbD bit) = out
  refine (adds_driveMosi hdata _).bind fun _ first hfirst => ?_
  rw [hout] at hfirst
  refine (adds_daphneDelayNs _).bind fun _ setup ⟨_, hsetup⟩ => ?_
  refine (adds_daphneDelayNs _).bind fun _ low ⟨_, hlow⟩ => ?_
  refine adds_drive_bind ?_
  refine (adds_daphneDelayNs _).bind fun _ high ⟨_, hhigh⟩ => ?_
  have hs : ∀ v, (bus d).Shows v setup v _ [] (fun _ => []) fun _ => [] := fun v => .pauses hsetup
  have hl : ∀ v, (bus d).Shows v low v _ [] (fun _ => []) fun _ => [] := fun v => .pauses hlow
  have hh : ∀ v, (bus d).Shows v high v _ [] (fun _ => []) fun _ => [] := fun v => .pauses hhigh
  have hsample : Adds miso (sampleMiso d miso) (((trace ++ first ++ setup ++ low) ++ [.drive .sck true]) ++ high)
      fun level events => (d.miso = true ∨ level = false) ∧ events = if d.miso then [.sample level] else [] := by
    rw [sampleMiso]
    cases d.miso
    · exact adds_pure ⟨Or.inr rfl, rfl⟩
    · exact adds_sample fun level => ⟨Or.inl rfl, rfl⟩
  refine hsample.bind ?_
  rintro level sampled ⟨hlevel, rfl⟩
  refine adds_drive_bind (adds_pure ⟨level, hlevel, rfl, ?_⟩)
  have hclock : Exchange d out (setup ++ (low ++ .drive .sck true :: (high ++
      ((if d.miso then [.sample level] else []) ++ [.drive .sck false])))) out
      ([.rise out] ++ (if d.miso then [.sample level out] else []) ++ [.fall]) := by
    cases d.miso <;> constructor <;> simp [(hs _).after, (hl _).after, (hh _).after, (hs _).selects, (hl _).selects,
      (hh _).selects, (hs _).inside, (hl _).inside, (hh _).inside, (hs _).outside, (hl _).outside, (hh _).outside]
  have hall := hfirst.append hclock
  rw [bitTicks, hout, List.append_assoc, List.append_assoc]
  rw [List.append_assoc] at hall
  exact hall

/-! ### A byte -/

theorem getLsbD_set_bit (rxByte : UInt8) (level : Bool) {bit : Nat} (hbit : bit < 8) (i : Nat) :
    (if level then rxByte ||| ((1 : UInt8) <<< UInt8.ofNat bit) else rxByte).toBitVec.getLsbD i =
      (rxByte.toBitVec.getLsbD i || (level && decide (i = bit))) := by
  have hone : ∀ bit < 8, ((1 : UInt8) <<< UInt8.ofNat bit).toBitVec = BitVec.twoPow 8 bit := by decide
  cases level
  · simp
  · rw [if_pos rfl, UInt8.toBitVec_or, hone bit hbit, BitVec.getLsbD_or, BitVec.getLsbD_twoPow]
    simp [hbit, eq_comm]

theorem adds_transferByte (txByte : UInt8) {data : Bool} (hdata : d.mosi = true ∨ data = false) :
    Adds miso (transferByte d miso txByte) trace fun rxByte events => ∃ data', (d.mosi = true ∨ data' = false) ∧
      (d.miso = true ∨ rxByte = 0) ∧ Exchange d data events data' (byteTicks d txByte rxByte) := by
  refine (adds_foldlM_range (n := 8) (fun k rxByte events => ∃ data', (d.mosi = true ∨ data' = false) ∧
    (d.miso = true ∨ rxByte = 0) ∧ (∀ i < 8 - k, rxByte.toBitVec.getLsbD i = false) ∧
    Exchange d data events data' ((List.range k).flatMap fun n =>
      bitTicks d (txByte.toBitVec.getLsbD (7 - n)) (rxByte.toBitVec.getLsbD (7 - n)))) ?_ ?_).mono ?_
  · exact ⟨data, hdata, Or.inr rfl, fun i _ => by simp, exchange_nil data⟩
  · rintro k rxByte events trace hk ⟨data', hdata', hmiso, hclear, hexchange⟩
    refine (adds_transferBit txByte rxByte (7 - k) hdata').mono ?_
    rintro _ events' ⟨level, hlevel, rfl, hbit⟩
    refine ⟨d.mosi && txByte.toBitVec.getLsbD (7 - k), ?_, ?_, fun i hi => ?_, ?_⟩
    · cases d.mosi
      · exact Or.inr rfl
      · exact Or.inl rfl
    · rcases hlevel with hlevel | rfl
      · exact Or.inl hlevel
      · exact hmiso
    · rw [getLsbD_set_bit rxByte level (by omega), hclear i (by omega)]
      have hne : i ≠ 7 - k := by omega
      simp [hne]
    · -- the bits that came before stay, and the new one is what was sampled
      have hlast : (if level then rxByte ||| ((1 : UInt8) <<< UInt8.ofNat (7 - k)) else rxByte).toBitVec.getLsbD (7 - k) =
          level := by
        rw [getLsbD_set_bit rxByte level (by omega), hclear (7 - k) (by omega)]
        simp
      have hpast : ∀ n ∈ List.range k,
          bitTicks d (txByte.toBitVec.getLsbD (7 - n)) (rxByte.toBitVec.getLsbD (7 - n)) =
            bitTicks d (txByte.toBitVec.getLsbD (7 - n))
              ((if level then rxByte ||| ((1 : UInt8) <<< UInt8.ofNat (7 - k)) else rxByte).toBitVec.getLsbD (7 - n)) := by
        intro n hn
        have hlt : n < k := List.mem_range.mp hn
        have hne : 7 - n ≠ 7 - k := by omega
        rw [getLsbD_set_bit rxByte level (by omega)]
        simp [hne]
      rw [List.range_succ, List.flatMap_append, ← List.flatMap_congr hpast, List.flatMap_singleton, hlast]
      exact hexchange.append hbit
  · rintro rxByte events ⟨data', hdata', hmiso, -, hexchange⟩
    exact ⟨data', hdata', hmiso, hexchange⟩

/-! ### A transfer -/

theorem stored_append_singleton (rxBytes : List UInt8) (rxByte : UInt8) (rx : Nat → UInt8) :
    stored (rxBytes ++ [rxByte]) rx = Function.update (stored rxBytes rx) rxBytes.length rxByte := by
  funext i
  rw [stored]
  rcases Nat.lt_trichotomy i rxBytes.length with hi | rfl | hi
  · rw [Function.update_of_ne (Nat.ne_of_lt hi), List.getElem?_append_left hi, stored]
  · rw [Function.update_self, List.getElem?_append_right (Nat.le_refl _)]
    simp
  · rw [Function.update_of_ne (Nat.ne_of_gt hi), stored, List.getElem?_eq_none (Nat.le_of_lt hi),
      List.getElem?_eq_none (by rw [List.length_append, List.length_singleton]; exact hi)]

theorem transferTicks_append_singleton (xfer : SpiTransfer) (rxBytes : List UInt8) (rxByte : UInt8) :
    transferTicks d xfer (rxBytes ++ [rxByte]) =
      transferTicks d xfer rxBytes ++ byteTicks d (xfer.txByte rxBytes.length) rxByte := by
  simp [transferTicks, List.zipIdx_append]

theorem adds_bytes (xfer : SpiTransfer) :
    Adds miso ((List.range xfer.len.toNat).foldlM (fun rx byteIndex => do
      let rxByte ← transferByte d miso (xfer.txByte byteIndex)
      return rx.map fun rx => Function.update rx byteIndex rxByte) xfer.rx_buf) trace fun rx events =>
        ∃ rxBytes data, rxBytes.length = xfer.len.toNat ∧ (d.mosi = true ∨ data = false) ∧
          (d.miso = true ∨ ∀ rxByte ∈ rxBytes, rxByte = 0) ∧ rx = xfer.rx_buf.map (stored rxBytes) ∧
          Exchange d false events data (transferTicks d xfer rxBytes) := by
  refine adds_foldlM_range (fun k rx events => ∃ rxBytes data, rxBytes.length = k ∧ (d.mosi = true ∨ data = false) ∧
    (d.miso = true ∨ ∀ rxByte ∈ rxBytes, rxByte = 0) ∧ rx = xfer.rx_buf.map (stored rxBytes) ∧
    Exchange d false events data (transferTicks d xfer rxBytes)) ?_ ?_
  · refine ⟨[], false, rfl, Or.inr rfl, Or.inr fun _ h => absurd h List.not_mem_nil, ?_, exchange_nil false⟩
    have hnone : stored [] = id := rfl
    rw [hnone, Option.map_id]
    rfl
  · rintro k rx events trace - ⟨rxBytes, data, rfl, hdata, hmiso, rfl, hexchange⟩
    refine (adds_transferByte (xfer.txByte rxBytes.length) hdata).bind ?_
    rintro rxByte events' ⟨data', hdata', hmiso', hbyte⟩
    refine adds_pure ⟨rxBytes ++ [rxByte], data', by simp, hdata', ?_, ?_, ?_⟩
    · rcases hmiso with hmiso | hmiso
      · exact Or.inl hmiso
      · refine hmiso'.imp_right fun hzero x hx => ?_
        rcases List.mem_append.mp hx with hx | hx
        · exact hmiso x hx
        · rw [List.mem_singleton.mp hx, hzero]
    · cases xfer.rx_buf with
      | none => rfl
      | some rx => simp [stored_append_singleton]
    · rw [transferTicks_append_singleton, List.append_nil]
      exact hexchange.append hbyte

theorem daphneSetCs_true : daphneSetCs d true = drive .cs d.cs_active_high := by
  rw [daphneSetCs]
  cases d.cs_active_high <;> rfl

theorem daphneSetCs_false : daphneSetCs d false = drive .cs (!d.cs_active_high) := by
  rw [daphneSetCs]
  cases d.cs_active_high <;> rfl

/-- What is driven after the last byte. -/
def release (d : DaphneMezzSpi) : List (Event Line) :=
  .drive .cs (!d.cs_active_high) :: .drive .sck false ::
    ((if d.mosi then [.drive .mosi false] else []) ++ [.drive .cs (!d.cs_active_high)])

theorem adds_daphneIdleLines : Adds miso (do daphneSetCs d false; daphneIdleLines d) trace fun _ events => events = release d := by
  rw [daphneSetCs_false, daphneIdleLines, daphneSetCs_false]
  refine adds_drive_bind (adds_drive_bind ?_)
  rw [driveMosi, release]
  cases d.mosi
  · exact adds_pure_bind (adds_drive rfl)
  · exact adds_drive_bind (adds_drive rfl)

section
variable {data : Bool}

theorem after_release (hdata : d.mosi = true ∨ data = false) :
    after (levels false data d.cs_active_high) (release d) = idle d := by
  rw [release, idle]
  rcases hdata with hmosi | rfl
  · simp [hmosi]
  · cases d.mosi <;> simp

theorem edges_release : edges (bus d).select (levels false data d.cs_active_high) (release d) = [!d.cs_active_high] := by
  rw [release]
  cases d.mosi <;> simp

theorem wave_release (t : Nat) : (bus d).wave true (levels false data d.cs_active_high) t (release d) = [] := by
  rw [release]
  cases d.mosi <;> cases hactive : d.cs_active_high <;> simp [hactive]

theorem clockEdges_release (t : Nat) :
    clockEdges ((bus d).wave false (levels false data d.cs_active_high) t (release d)) = [] := by
  rw [release]
  cases d.mosi <;> cases hactive : d.cs_active_high <;> simp [hactive, Tick.isEdge]

end

/-- A transfer that the driver takes on, from idle lines. -/
theorem adds_daphneTransferOne {mode : UInt32} {xfer : SpiTransfer} (h : Supported mode xfer) :
    Adds miso (daphneTransferOne d miso mode xfer) trace fun result events => ∃ rxBytes,
      rxBytes.length = xfer.len.toNat ∧ (d.miso = true ∨ ∀ rxByte ∈ rxBytes, rxByte = 0) ∧
      result = .ok (xfer.rx_buf.map (stored rxBytes)) ∧
      (∀ t, ((bus d).wave true (idle d) t events).map Prod.snd = transferTicks d xfer rxBytes) ∧
      (∀ t, clockEdges ((bus d).wave false (idle d) t events) = []) ∧
      edges (bus d).select (idle d) events = [d.cs_active_high, !d.cs_active_high] ∧ after (idle d) events = idle d := by
  have hmode : ¬mode &&& (SPI_CPOL ||| SPI_CPHA) ≠ SPI_MODE_0 := not_not.mpr h.1
  have hword : ¬(xfer.bits_per_word ≠ 0 ∧ xfer.bits_per_word ≠ 8) := by
    rintro ⟨hzero, height⟩
    exact h.2.elim hzero height
  rw [daphneTransferOne, if_neg hmode, if_neg hword, daphneSetCs_true]
  refine adds_drive_bind ((adds_bytes xfer).bind ?_)
  rintro rx events ⟨rxBytes, data, hlength, hdata, hmiso, rfl, hexchange⟩
  refine Adds.of_bind_assoc (adds_daphneIdleLines.bind ?_)
  rintro _ _ rfl
  have hwave (on : Bool) (t : Nat) :
      (bus d).wave on (idle d) t (.drive .cs d.cs_active_high :: (events ++ release d)) =
        (bus d).wave on (levels false false d.cs_active_high) t events ++
          (bus d).wave on (levels false data d.cs_active_high) (t + paused events) (release d) := by
    rw [Bus.wave_cons, Bus.wave_append, ← hexchange.after]
    simp [idle]
  refine adds_pure ?_
  rw [List.append_nil]
  refine ⟨rxBytes, hlength, hmiso, rfl, fun t => ?_, fun t => ?_, ?_, ?_⟩
  · rw [hwave, wave_release, List.append_nil, hexchange.inside]
  · rw [hwave, clockEdges_append, hexchange.outside, clockEdges_release]
    rfl
  · rw [idle, edges_cons, after_drive_cs, edges_append, hexchange.after, hexchange.selects, edges_release]
    cases d.cs_active_high <;> simp
  · rw [idle, after_cons, after_drive_cs, after_append, hexchange.after, after_release hdata]
    rfl

/-- There are eight pulses for each byte, with the bits that go out at their rising edges. -/
theorem filter_isEdge_transferTicks (xfer : SpiTransfer) (rxBytes : List UInt8) :
    (transferTicks d xfer rxBytes).filter Tick.isEdge = (List.range rxBytes.length).flatMap fun i =>
      (List.range 8).flatMap fun n => [.rise (d.mosi && (xfer.txByte i).toBitVec.getLsbD (7 - n)), .fall] := by
  have hbit (out level : Bool) : (bitTicks d out level).filter Tick.isEdge = [.rise (d.mosi && out), .fall] := by
    rw [bitTicks]
    cases d.mosi <;> cases d.miso <;> rfl
  induction rxBytes using List.reverseRecOn with
  | nil => rfl
  | append_singleton rxBytes rxByte ih =>
    rw [transferTicks_append_singleton, List.filter_append, ih, List.length_append, List.length_singleton,
      List.range_succ (n := rxBytes.length), List.flatMap_append, List.flatMap_singleton, byteTicks, List.filter_flatMap]
    simp only [hbit]

/-- The bits that come in are those that go out where every sample is at the level of MOSI. -/
theorem eq_txByte_of_samples {xfer : SpiTransfer} {rxBytes : List UInt8} (hmosi : d.mosi = true) (hmiso : d.miso = true)
    (h : ∀ level data, .sample level data ∈ transferTicks d xfer rxBytes → level = data) {i : Nat} {rxByte : UInt8}
    (hi : rxBytes[i]? = some rxByte) : rxByte = xfer.txByte i := by
  have hbyte : ∀ tick ∈ byteTicks d (xfer.txByte i) rxByte, tick ∈ transferTicks d xfer rxBytes := by
    intro tick htick
    refine List.mem_flatMap.mpr ⟨(rxByte, i), ?_, htick⟩
    exact List.mem_zipIdx_iff_getElem?.mpr hi
  apply UInt8.toBitVec_inj.mp
  apply BitVec.eq_of_getLsbD_eq
  intro bit hbit
  apply h
  apply hbyte
  refine List.mem_flatMap.mpr ⟨7 - bit, List.mem_range.mpr (by omega), ?_⟩
  have hself : 7 - (7 - bit) = bit := by omega
  rw [hself]
  simp [bitTicks, hmosi, hmiso]

/-- A transfer exchanges its bytes inside one selection of the chip and leaves the lines idle; what is not supported changes
    no line. If MISO follows MOSI, what comes in is what goes out. -/
theorem daphneTransferOne_lines (d : DaphneMezzSpi) (miso : List (Event Line) → Bool) (mode : UInt32) (xfer : SpiTransfer)
    (trace : List (Event Line)) :
    (Adds miso (daphneTransferOne d miso mode xfer) trace fun result events =>
      if Supported mode xfer then ∃ rxBytes,
        rxBytes.length = xfer.len.toNat ∧ (d.miso = true ∨ ∀ rxByte ∈ rxBytes, rxByte = 0) ∧
        result = .ok (xfer.rx_buf.map (stored rxBytes)) ∧
        (∀ t, ((bus d).wave true (idle d) t events).map Prod.snd = transferTicks d xfer rxBytes) ∧
        (∀ t, clockEdges ((bus d).wave true (idle d) t events) = (List.range xfer.len.toNat).flatMap fun i =>
          (List.range 8).flatMap fun n => [.rise (d.mosi && (xfer.txByte i).toBitVec.getLsbD (7 - n)), .fall]) ∧
        (∀ t, clockEdges ((bus d).wave false (idle d) t events) = []) ∧
        edges (bus d).select (idle d) events = [d.cs_active_high, !d.cs_active_high] ∧ after (idle d) events = idle d
      else events = [] ∧ result = .error .eopnotsupp) ∧
    ∀ (start : Line → Bool) (tx rx : Nat → UInt8), Supported mode xfer → after start trace = idle d →
      (∀ trace, miso trace = after start trace .mosi) → d.mosi = true → d.miso = true → xfer.tx_buf = some tx →
      xfer.rx_buf = some rx → Adds miso (daphneTransferOne d miso mode xfer) trace fun result _ =>
        ∃ rx', result = .ok (some rx') ∧ ∀ i < xfer.len.toNat, rx' i = tx i := by
  constructor
  · by_cases h : Supported mode xfer
    · refine (adds_daphneTransferOne h).mono ?_
      rintro result events ⟨rxBytes, hlength, hmiso, hresult, hinside, houtside, hselects, hafter⟩
      rw [if_pos h]
      refine ⟨rxBytes, hlength, hmiso, hresult, hinside, fun t => ?_, houtside, hselects, hafter⟩
      rw [clockEdges, hinside, filter_isEdge_transferTicks, hlength]
    · simp only [if_neg h]
      rw [daphneTransferOne]
      by_cases hmode : mode &&& (SPI_CPOL ||| SPI_CPHA) ≠ SPI_MODE_0
      · rw [if_pos hmode]
        exact adds_pure ⟨rfl, rfl⟩
      · have hword : xfer.bits_per_word ≠ 0 ∧ xfer.bits_per_word ≠ 8 := by
          constructor
          · intro hzero
            exact h ⟨not_not.mp hmode, Or.inl hzero⟩
          · intro height
            exact h ⟨not_not.mp hmode, Or.inr height⟩
        rw [if_neg hmode, if_pos hword]
        exact adds_pure ⟨rfl, rfl⟩
  · intro start tx rx h hstart hfollows hmosi hmiso htx hrx
    refine (adds_daphneTransferOne h).mono_answered ?_
    rintro result events hanswered ⟨rxBytes, hlength, -, hresult, hinside, -⟩
    rw [hrx] at hresult
    refine ⟨stored rxBytes rx, hresult, fun i hi => ?_⟩
    have hsamples : ∀ level data, .sample level data ∈ transferTicks d xfer rxBytes → level = data := by
      intro level data hmem
      rw [← hinside 0, ← hstart] at hmem
      obtain ⟨⟨t, tick⟩, hmem, rfl⟩ := List.mem_map.mp hmem
      exact Bus.sample_eq_data hfollows hanswered hmem
    have hsome : rxBytes[i]? = some rxBytes[i] := List.getElem?_eq_getElem (by omega)
    have hbyte := eq_txByte_of_samples hmosi hmiso hsamples hsome
    rw [stored, hsome, Option.getD_some, hbyte, SpiTransfer.txByte, htx]

/-- Two bytes over a loop from MOSI to MISO. -/
theorem daphneTransferOne_loopback :
    ∃ rx', (daphneTransferOne ⟨true, true, 250, 250, 0, false⟩ (fun trace => after (levels false false true) trace .mosi) 0
      ⟨some fun i => if i = 0 then 0xA5 else 0x3C, some fun _ => 0, 2, 8⟩ []).1 = .ok (some rx') ∧
        rx' 0 = 0xA5 ∧ rx' 1 = 0x3C := by
  obtain ⟨-, -, -, rx', hresult, hbytes⟩ := (daphneTransferOne_lines ⟨true, true, 250, 250, 0, false⟩
    (fun trace => after (levels false false true) trace .mosi) 0
    ⟨some fun i => if i = 0 then 0xA5 else 0x3C, some fun _ => 0, 2, 8⟩ []).2 (levels false false true) _ _ (by decide) rfl
    (fun _ => rfl) rfl rfl rfl rfl
  exact ⟨rx', hresult, hbytes 0 (by decide), hbytes 1 (by decide)⟩

end DaphneZmq.MezzSpi
