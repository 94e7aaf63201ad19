import DaphneZmq.CurrentMonitor
import DaphneZmq.Theorems.AxiQuadSpi
import Mathlib.Data.Nat.Bitwise

/-! # A read of the current monitor

Whatever the core answers, a read sends a prefix of one course of frames and leaves the core idle. A conversion is started only on
a converter that has said what it is and reads back the inputs that it was given, and a value is reported only after the whole
course. -/

namespace DaphneZmq.CurrentMonitor
open Lib Lib.Trace AxiQuadSpi

/-! ### Sessions -/

/-- The accesses that send and receive the frames, one after another. -/
inductive Session : List Frame → List SpiAccess → Prop where
  | nil : Session [] []
  | cons {tx rx : List UInt8} {frames : List Frame} {l l' : List SpiAccess} (h : Exchange tx rx l) (hrest : Session frames l') :
      Session ((tx, rx) :: frames) (l ++ l')

theorem Session.append {frames frames' : List Frame} {l l' : List SpiAccess} (h : Session frames l) (h' : Session frames' l') :
    Session (frames ++ frames') (l ++ l') := by
  induction h with
  | nil => exact h'
  | cons hexchange _ ih =>
    rw [List.cons_append, List.append_assoc]
    exact .cons hexchange ih

theorem Session.idle {frames : List Frame} {l past : List SpiAccess} (h : Session frames l) (hpast : Idle past) : Idle (past ++ l) := by
  induction h generalizing past with
  | nil => rwa [List.append_nil]
  | cons hexchange _ ih =>
    rw [← List.append_assoc]
    exact ih (hexchange.idle hpast)

variable {spi : AxiQuadSpi} {env : SpiEnv} {α β : Type} {s : SpiState}

/-- The program adds a session to the trace, with what `R` and `E` say of its frames. -/
def Says (m : SpiProg α) (R : α → List Frame → Prop) (E : String → List Frame → Prop) (s : SpiState) : Prop :=
  Adds m (fun a l _ => ∃ frames, Session frames l ∧ R a frames) (fun e l _ => ∃ frames, Session frames l ∧ E e frames) s

theorem says_pure {R : α → List Frame → Prop} {E : String → List Frame → Prop} {a : α} (h : R a []) : Says (pure a) R E s :=
  adds_pure ⟨[], .nil, h⟩

theorem Says.bind {m : SpiProg α} {f : α → SpiProg β} {R : α → List Frame → Prop} {E : String → List Frame → Prop}
    {R' : β → List Frame → Prop} {E' : String → List Frame → Prop} (h : Says m R E s)
    (hok : ∀ a frames t, R a frames →
      Says (f a) (fun b frames' => R' b (frames ++ frames')) (fun e frames' => E' e (frames ++ frames')) t)
    (herror : ∀ e frames, E e frames → E' e frames) : Says (m >>= f) R' E' s := by
  refine Adds.bind h ?_ ?_
  · rintro a l t ⟨frames, hsession, hR⟩
    refine (hok a frames t hR).mono ?_ ?_
    · rintro b l' u ⟨frames', hsession', hR'⟩
      exact ⟨_, hsession.append hsession', hR'⟩
    · rintro e l' u ⟨frames', hsession', hE'⟩
      exact ⟨_, hsession.append hsession', hE'⟩
  · rintro e l t ⟨frames, hsession, hE⟩
    exact ⟨frames, hsession, herror e frames hE⟩

theorem says_sleepFor {duration : Nat} {f : Unit → SpiProg β} {R : β → List Frame → Prop} {E : String → List Frame → Prop}
    (h : ∀ t, Says (f ()) R E t) : Says (sleepFor duration >>= f) R E s :=
  .of_ok rfl (List.append_nil _).symm (h _)

/-! ### Frames -/

/-- The program sends one frame and returns the value of its answer, or the answer does not come in time. -/
def Sends (m : SpiProg α) (tx : List UInt8) (value : List UInt8 → α) : Prop :=
  ∀ s, Says m (fun a frames => ∃ rx, rx.length = tx.length ∧ frames = [(tx, rx)] ∧ a = value rx)
    (fun e frames => e = timedOut ∧ ∃ rx, rx.length < tx.length ∧ frames = [(tx, rx)]) s

theorem sends_transfer {tx : List UInt8} (htx : tx ≠ []) : Sends (spi.transfer env tx) tx id := by
  intro s
  refine (adds_transfer htx s).mono ?_ ?_
  · rintro rx l t ⟨hlength, hexchange⟩
    exact ⟨[(tx, rx)], List.append_nil l ▸ .cons hexchange .nil, rx, hlength, rfl, rfl⟩
  · rintro e l t ⟨rfl, rx, hshort, hexchange⟩
    exact ⟨[(tx, rx)], List.append_nil l ▸ .cons hexchange .nil, rfl, rx, hshort, rfl⟩

/-- The checks of an answer always pass. -/
theorem Sends.map {tx : List UInt8} {value : List UInt8 → α} {m : SpiProg (List UInt8)} {f : List UInt8 → SpiProg α}
    (h : Sends m tx id) (hf : ∀ rx, rx.length = tx.length → f rx = return value rx) : Sends (m >>= f) tx value := by
  intro s
  refine (h s).bind ?_ fun _ _ h => h
  rintro rx frames t ⟨_, hlength, rfl, rfl⟩
  rw [hf _ hlength]
  exact says_pure ⟨_, hlength, rfl, rfl⟩

theorem sends_adsCommand (opcode : UInt8) : Sends (adsCommand spi env opcode) [opcode, 0] fun rx => rx.getD 1 0 :=
  (sends_transfer (List.cons_ne_nil _ _)).map fun rx hlength => by
    rw [if_pos (hlength ▸ Nat.lt_add_one 1)]

theorem sends_adsReadReg (reg_addr : UInt8) :
    Sends (adsReadReg spi env reg_addr) [ADS_RREG ||| (reg_addr &&& 0x1F), 0, 0] fun rx => rx.getD 2 0 :=
  (sends_transfer (List.cons_ne_nil _ _)).map fun rx hlength => by
    rw [if_neg (hlength ▸ Nat.lt_irrefl 3)]

theorem sends_adsWriteReg (reg_addr value : UInt8) :
    Sends (adsWriteReg spi env reg_addr value) [ADS_WREG ||| (reg_addr &&& 0x1F), value] fun _ => () :=
  (sends_transfer (List.cons_ne_nil _ _)).map fun rx hlength => by
    rw [if_neg (hlength ▸ Nat.lt_irrefl 2)]

/-! ### The course -/

/-- What the converter has answered before it is started. -/
structure Ready (mux : UInt8) (frames : List Frame) : Prop where
  identified : Identified frames
  inputs : registerByte frames 6 = mux

/-- The frames are the first of the course, and the start comes when the converter is ready. -/
structure Kept (mux : UInt8) (frames : List Frame) : Prop where
  sent : frames.map Prod.fst <+: course mux
  ready : [ADS_START, 0] ∈ frames.map Prod.fst → Ready mux frames

/-- Each frame has its answer. -/
structure Answered (mux : UInt8) (frames : List Frame) : Prop extends Kept mux frames where
  lengths : ∀ frame ∈ frames, frame.2.length = frame.1.length

/-- Each frame has its answer but the last, which is short of it. -/
structure Unanswered (mux : UInt8) (frames : List Frame) : Prop extends Kept mux frames where
  last : ∃ before tx rx, frames = before ++ [(tx, rx)] ∧ rx.length < tx.length ∧ Answered mux before

theorem registerByte_append {frames : List Frame} {n : Nat} (h : n < frames.length) (frames' : List Frame) :
    registerByte (frames ++ frames') n = registerByte frames n := by
  have hframe : (frames ++ frames').getD n ([], []) = frames.getD n ([], []) := by
    rw [List.getD_eq_getElem?_getD, List.getElem?_append_left h, ← List.getD_eq_getElem?_getD]
  rw [registerByte, hframe, registerByte]

theorem Ready.append {mux : UInt8} {frames : List Frame} (h : Ready mux frames) (hlength : 7 ≤ frames.length) (frames' : List Frame) :
    Ready mux (frames ++ frames') := by
  constructor
  · rw [Identified, registerByte_append (by omega)]
    exact h.identified
  · rw [registerByte_append (by omega)]
    exact h.inputs

/-- The start comes after seven frames. -/
theorem not_started {mux : UInt8} {sent : List (List UInt8)} (h : sent <+: course mux) (hlength : sent.length ≤ 7) :
    [ADS_START, 0] ∉ sent := by
  intro hmem
  have htake : sent <+: (course mux).take 7 := (List.prefix_take_iff ..).mpr ⟨h, hlength⟩
  have hfirst : ADS_START ∈ ((course mux).take 7).map (List.headD · 0) := List.mem_map.mpr ⟨_, htake.subset hmem, rfl⟩
  have hcommands : ((course mux).take 7).map (List.headD · 0) = ((course 0).take 7).map (List.headD · 0) := rfl
  rw [hcommands] at hfirst
  revert hfirst
  decide

/-- The program goes on with the course. -/
def Follows (mux : UInt8) (before : List Frame) (m : SpiProg α) (R : α → List Frame → Prop) (s : SpiState) : Prop :=
  Answered mux before → Says m (fun a frames => Answered mux (before ++ frames) ∧ R a (before ++ frames))
    (fun e frames => e = timedOut ∧ Unanswered mux (before ++ frames)) s

theorem follows_pure {mux : UInt8} {before : List Frame} {R : α → List Frame → Prop} {a : α} (h : R a before) :
    Follows mux before (pure a) R s := by
  intro hbefore
  refine says_pure ?_
  rw [List.append_nil]
  exact ⟨hbefore, h⟩

/-- The next frame. -/
theorem Sends.follows {mux : UInt8} {m : SpiProg α} {tx : List UInt8} {value : List UInt8 → α} {f : α → SpiProg β} {before : List Frame}
    {R : β → List Frame → Prop} (h : Sends m tx value) (hnext : before.map Prod.fst ++ [tx] <+: course mux)
    (hready : before.length < 7 ∨ Ready mux before)
    (hok : ∀ rx t, rx.length = tx.length → Follows mux (before ++ [(tx, rx)]) (f (value rx)) R t) :
    Follows mux before (m >>= f) R s := by
  intro hbefore
  have hkept (rx : List UInt8) : Kept mux (before ++ [(tx, rx)]) := by
    constructor
    · rwa [List.map_append]
    · intro hstarted
      rw [List.map_append] at hstarted
      by_cases hlength : before.length < 7
      · refine absurd hstarted (not_started hnext ?_)
        rw [List.length_append, List.length_map]
        exact hlength
      · exact (hready.resolve_left hlength).append (Nat.le_of_not_lt hlength) _
  refine (h s).bind ?_ ?_
  · rintro a frames t ⟨rx, hlength, rfl, rfl⟩
    have hanswered : Answered mux (before ++ [(tx, rx)]) := by
      refine ⟨hkept rx, fun frame hmem => ?_⟩
      rcases List.mem_append.mp hmem with hmem | hmem
      · exact hbefore.lengths frame hmem
      · cases List.mem_singleton.mp hmem
        exact hlength
    have hrest := hok rx t hlength hanswered
    simp only [List.append_assoc] at hrest
    exact hrest
  · rintro e frames ⟨rfl, rx, hshort, rfl⟩
    exact ⟨rfl, hkept rx, before, tx, rx, rfl, hshort, hbefore⟩

theorem follows_sleepFor {mux : UInt8} {before : List Frame} {duration : Nat} {f : Unit → SpiProg β} {R : β → List Frame → Prop}
    (h : ∀ t, Follows mux before (f ()) R t) : Follows mux before (sleepFor duration >>= f) R s :=
  fun hbefore => says_sleepFor fun t => h t hbefore

/-! ### Conversions -/

/-- How a conversion comes out. -/
inductive Converted (channel : UInt32) (mux : UInt8) (frames : List Frame) : Except String (UInt32 × String) → Prop where
  | unidentified (hlength : frames.length = 2) (h : ¬Identified frames) :
      Converted channel mux frames (.error (invalidId (registerByte frames 1)))
  | mismatch (hlength : frames.length = 7) (hid : Identified frames) (h : registerByte frames 6 ≠ mux) :
      Converted channel mux frames (.error (muxMismatch mux (registerByte frames 6)))
  | done (raw24 : UInt32) (hall : frames.map Prod.fst = course mux) (hvalue : (signedRaw raw24).toInt32.toInt = conversion frames) :
      Converted channel mux frames
        (.ok (signedRaw raw24, okMessage channel mux (registerByte frames 1) (registerByte frames 10) raw24))

theorem toNat_raw24Of (rx : List UInt8) :
    (raw24Of rx).toNat = (rx.getD 2 0).toNat * 2 ^ 16 + (rx.getD 3 0).toNat * 2 ^ 8 + (rx.getD 4 0).toNat := by
  have hmid := (rx.getD 3 0).toNat_lt
  have hlo := (rx.getD 4 0).toNat_lt
  have hhi := (rx.getD 2 0).toNat_lt
  have h16 : (16 : UInt32).toNat % 32 = 16 := rfl
  have h8 : (8 : UInt32).toNat % 32 = 8 := rfl
  have hfirst : (rx.getD 2 0).toNat * 2 ^ 16 ||| (rx.getD 3 0).toNat * 2 ^ 8 = 2 ^ 8 * (2 ^ 8 * (rx.getD 2 0).toNat + (rx.getD 3 0).toNat) := by
    rw [Nat.mul_comm, ← Nat.two_pow_add_eq_or_of_lt (by omega)]
    omega
  rw [raw24Of, UInt32.toNat_or, UInt32.toNat_or, UInt32.toNat_shiftLeft, UInt32.toNat_shiftLeft, h16, h8, UInt8.toNat_toUInt32,
    UInt8.toNat_toUInt32, UInt8.toNat_toUInt32, Nat.shiftLeft_eq, Nat.shiftLeft_eq, Nat.mod_eq_of_lt (by omega),
    Nat.mod_eq_of_lt (by omega), hfirst, ← Nat.two_pow_add_eq_or_of_lt hlo]
  omega

/-- `0x800000` is the sign of a number of 24 bits. -/
theorem signedRaw_toInt {raw24 : UInt32} (h : raw24.toNat < 2 ^ 24) :
    (signedRaw raw24).toInt32.toInt = if raw24.toNat < 2 ^ 23 then (raw24.toNat : Int) else (raw24.toNat : Int) - 2 ^ 24 := by
  have hsign : raw24 &&& 0x800000 = 0 ↔ raw24.toNat < 2 ^ 23 := by
    have hand : (raw24 &&& 0x800000).toNat = raw24.toNat / 2 ^ 23 % 2 * 2 ^ 23 := by
      rw [UInt32.toNat_and, show (0x800000 : UInt32).toNat = 2 ^ 23 from rfl, Nat.and_two_pow, Nat.testBit_eq_decide_div_mod_eq]
      rcases Nat.mod_two_eq_zero_or_one (raw24.toNat / 2 ^ 23) with hbit | hbit <;> rw [hbit] <;> rfl
    rw [← UInt32.toNat_inj, hand, UInt32.toNat_zero]
    omega
  unfold signedRaw
  show BitVec.toInt _ = _
  by_cases hlow : raw24.toNat < 2 ^ 23
  · rw [if_neg (not_not_intro (hsign.mpr hlow)), if_pos hlow, UInt32.toBitVec_toInt32, BitVec.toInt_eq_toNat_cond,
      UInt32.toNat_toBitVec, if_pos (by omega)]
  · have hor : (raw24 ||| 0xFF000000).toNat = raw24.toNat + 0xFF000000 := by
      rw [UInt32.toNat_or, Nat.or_comm, show (0xFF000000 : UInt32).toNat = 2 ^ 24 * 0xFF from rfl, ← Nat.two_pow_add_eq_or_of_lt h,
        Nat.add_comm]
    rw [if_pos fun h => hlow (hsign.mp h), if_neg hlow, UInt32.toBitVec_toInt32, BitVec.toInt_eq_toNat_cond,
      UInt32.toNat_toBitVec, hor, if_neg (by omega)]
    omega

theorem signedRaw_raw24Of (rx : List UInt8) : (signedRaw (raw24Of rx)).toInt32.toInt = twosComplement rx := by
  have hraw := toNat_raw24Of rx
  have hhi := (rx.getD 2 0).toNat_lt
  have hmid := (rx.getD 3 0).toNat_lt
  have hlo := (rx.getD 4 0).toNat_lt
  rw [signedRaw_toInt (by omega), hraw, twosComplement]

theorem convert_follows (channel : UInt32) (mux : UInt8) :
    Follows mux [] (convert spi env channel mux) (fun r frames => Converted channel mux frames r) s := by
  unfold convert
  refine (sends_adsCommand _).follows ⟨_, rfl⟩ (Or.inl (by simp)) fun rx0 t0 h0 => ?_
  refine follows_sleepFor fun t => ?_
  refine (sends_adsReadReg _).follows ⟨_, rfl⟩ (Or.inl (by simp)) fun rx1 t1 h1 => ?_
  split
  · next hid => exact follows_pure (.unidentified rfl fun h => h.elim hid.1 hid.2)
  next hid =>
  refine (sends_adsWriteReg _ _).follows ⟨_, rfl⟩ (Or.inl (by simp)) fun rx2 t2 h2 => ?_
  refine (sends_adsWriteReg _ _).follows ⟨_, rfl⟩ (Or.inl (by simp)) fun rx3 t3 h3 => ?_
  refine (sends_adsWriteReg _ _).follows ⟨_, rfl⟩ (Or.inl (by simp)) fun rx4 t4 h4 => ?_
  refine (sends_adsWriteReg _ _).follows ⟨_, rfl⟩ (Or.inl (by simp)) fun rx5 t5 h5 => ?_
  refine (sends_adsReadReg _).follows ⟨_, rfl⟩ (Or.inl (by simp)) fun rx6 t6 h6 => ?_
  have hidentified {frames : List Frame} (h : registerByte frames 1 = rx1.getD 2 0) : Identified frames := by
    rw [Identified, h]
    exact Decidable.or_iff_not_not_and_not.mpr hid
  split
  · next hmux => exact follows_pure (.mismatch rfl (hidentified rfl) hmux)
  next hmux =>
  have hready {frames : List Frame} (hid : registerByte frames 1 = rx1.getD 2 0) (hread : registerByte frames 6 = rx6.getD 2 0) :
      Ready mux frames := ⟨hidentified hid, hread.trans (not_not.mp hmux)⟩
  refine (sends_adsCommand _).follows ⟨_, rfl⟩ (Or.inr (hready rfl rfl)) fun rx7 t7 h7 => ?_
  refine follows_sleepFor fun t => ?_
  refine (sends_transfer (List.cons_ne_nil _ _)).follows ⟨_, rfl⟩ (Or.inr (hready rfl rfl)) fun rx8 t8 h8 => ?_
  refine (sends_adsCommand _).follows ⟨_, rfl⟩ (Or.inr (hready rfl rfl)) fun rx9 t9 h9 => ?_
  rw [if_neg (h8 ▸ Nat.lt_irrefl 5)]
  refine (sends_adsReadReg _).follows ⟨_, rfl⟩ (Or.inr (hready rfl rfl)) fun rx10 t10 h10 => ?_
  exact follows_pure (.done _ rfl (signedRaw_raw24Of rx8))

/-! ### Requests -/

/-- The accesses prepare the core and then send and receive the frames, with the inputs of the channel. -/
structure Talks (vars : Variables) (channel : UInt32) (mux : UInt8) (frames : List Frame) (l : List SpiAccess) : Prop where
  mux : currentMonitorMuxForChannel vars channel = .ok mux
  session : ∃ created l', l = created ++ l' ∧ Idle created ∧ Session frames l'

/-- What a request comes to, by what it adds to the trace. -/
inductive Outcome (vars : Variables) (fails : Option String) : Option UInt32 → Response → List SpiAccess → Prop where
  | malformed : Outcome vars fails none ⟨false, "Bad cmd_readCurrentMonitor payload", 0, 0⟩ []
  | refused {channel : UInt32} {e : String}
      (h : currentMonitorMuxForChannel vars channel = .error e ∨ (∃ mux, currentMonitorMuxForChannel vars channel = .ok mux) ∧ fails = some e) :
      Outcome vars fails (some channel) ⟨false, "Current monitor read failed: " ++ e, channel, 0⟩ []
  | timedOut {channel : UInt32} {mux : UInt8} {frames : List Frame} {l : List SpiAccess} (htalks : Talks vars channel mux frames l)
      (h : Unanswered mux frames) :
      Outcome vars fails (some channel) ⟨false, "Current monitor read failed: " ++ timedOut, channel, 0⟩ l
  | failed {channel : UInt32} {mux : UInt8} {frames : List Frame} {l : List SpiAccess} {msg : String}
      (htalks : Talks vars channel mux frames l) (h : Answered mux frames) (hconverted : Converted channel mux frames (.error msg)) :
      Outcome vars fails (some channel) ⟨false, msg, channel, 0⟩ l
  | done {channel : UInt32} {mux : UInt8} {frames : List Frame} {l : List SpiAccess} {value : UInt32} {msg : String}
      (htalks : Talks vars channel mux frames l) (h : Answered mux frames) (hconverted : Converted channel mux frames (.ok (value, msg))) :
      Outcome vars fails (some channel) ⟨true, msg, channel, value⟩ l

theorem Talks.idle {vars : Variables} {channel : UInt32} {mux : UInt8} {frames : List Frame} {l : List SpiAccess}
    (h : Talks vars channel mux frames l) : Idle l := by
  obtain ⟨created, l', rfl, hcreated, hsession⟩ := h.session
  exact hsession.idle hcreated

/-- After a request the core is idle, unless it has not been accessed. -/
theorem Outcome.idle {vars : Variables} {fails : Option String} {request : Option UInt32} {response : Response} {l : List SpiAccess}
    (h : Outcome vars fails request response l) : l = [] ∨ Idle l := by
  cases h with
  | malformed => exact Or.inl rfl
  | refused _ => exact Or.inl rfl
  | timedOut htalks _ => exact Or.inr htalks.idle
  | failed htalks _ _ => exact Or.inr htalks.idle
  | done htalks _ _ => exact Or.inr htalks.idle

/-- The `try` block once the inputs are known. -/
theorem adds_convert {vars : Variables} {channel : UInt32} {mux : UInt8} (hmux : currentMonitorMuxForChannel vars channel = .ok mux)
    (fails : Option String) (base : Nat) (s : SpiState) : Adds (create fails base >>= fun spi => convert spi env channel mux)
      (fun r l _ => ∃ frames, Talks vars channel mux frames l ∧ Answered mux frames ∧ Converted channel mux frames r)
      (fun e l _ => fails = some e ∧ l = [] ∨ e = timedOut ∧ ∃ frames, Talks vars channel mux frames l ∧ Unanswered mux frames) s := by
  refine (adds_create fails base s).bind ?_ fun _ _ _ h => Or.inl h
  intro spi created t hcreated
  have hnothing : Answered mux [] := ⟨⟨List.nil_prefix, nofun⟩, nofun⟩
  refine Adds.mono (convert_follows channel mux hnothing) ?_ ?_
  · rintro r l u ⟨frames, hsession, hanswered, hconverted⟩
    exact ⟨frames, ⟨hmux, created, l, rfl, hcreated, hsession⟩, hanswered, hconverted⟩
  · rintro e l u ⟨frames, hsession, rfl, hunanswered⟩
    exact Or.inr ⟨rfl, frames, ⟨hmux, created, l, rfl, hcreated, hsession⟩, hunanswered⟩

theorem handle_of_reading {vars : Variables} {fails : Option String} {channel : UInt32} {reading : Reading} {t : SpiState}
    (h : readCurrentMonitorRaw env vars fails channel 0 s = .ok reading t) :
    handleReadCurrentMonitor env vars fails (some channel) s =
      .ok ⟨reading.ok, reading.response_msg, channel, reading.current_value⟩ t := by
  show (readCurrentMonitorRaw env vars fails channel 0 >>= _) s = _
  rw [Device.bind_ok h]
  rfl

/-- Whatever the converter answers, a request comes to one of these outcomes, and the core is idle after it. -/
theorem handle_spec (env : SpiEnv) (vars : Variables) (fails : Option String) (request : Option UInt32) (s : SpiState) :
    Adds (handleReadCurrentMonitor env vars fails request)
      (fun response l _ => Outcome vars fails request response l ∧ (l = [] ∨ Idle l)) (fun _ _ _ => False) s := by
  suffices h : Adds (handleReadCurrentMonitor env vars fails request) (fun response l _ => Outcome vars fails request response l)
      (fun _ _ _ => False) s from h.mono (fun _ _ _ houtcome => ⟨houtcome, houtcome.idle⟩) fun _ _ _ => id
  cases request with
  | none => exact adds_pure .malformed
  | some channel =>
    cases hmux : currentMonitorMuxForChannel vars channel with
    | error e =>
      have hreading : readCurrentMonitorRaw env vars fails channel 0 s = .ok ⟨false, 0, "Current monitor read failed: " ++ e⟩ s := by
        rw [readCurrentMonitorRaw, hmux]
      exact adds_of_ok (handle_of_reading hreading) (List.append_nil _).symm (.refused (Or.inl hmux))
    | ok mux =>
      cases hrun : (create fails (vars.env_u64 "DAPHNE_CURRENT_MONITOR_SPI_BASE" DEFAULT_BASE).toNat >>= fun spi =>
          convert spi env channel mux) s with
      | ok r t =>
        obtain ⟨_, ht, frames, htalks, hanswered, hconverted⟩ := (adds_convert hmux fails _ s).ok hrun
        cases r with
        | error msg =>
          have hreading : readCurrentMonitorRaw env vars fails channel 0 s = .ok ⟨false, 0, msg⟩ t := by
            rw [readCurrentMonitorRaw, hmux]
            simp only [hrun]
          exact adds_of_ok (handle_of_reading hreading) ht (.failed htalks hanswered hconverted)
        | ok done =>
          have hreading : readCurrentMonitorRaw env vars fails channel 0 s = .ok ⟨true, done.1, done.2⟩ t := by
            rw [readCurrentMonitorRaw, hmux]
            simp only [hrun]
          exact adds_of_ok (handle_of_reading hreading) ht (.done htalks hanswered hconverted)
      | error e t =>
        have hreading : readCurrentMonitorRaw env vars fails channel 0 s = .ok ⟨false, 0, "Current monitor read failed: " ++ e⟩ t := by
          rw [readCurrentMonitorRaw, hmux]
          simp only [hrun]
        obtain ⟨_, ht, ⟨hfails, rfl⟩ | ⟨rfl, frames, htalks, hunanswered⟩⟩ := (adds_convert hmux fails _ s).error hrun
        · exact adds_of_ok (handle_of_reading hreading) ht (.refused (Or.inr ⟨⟨mux, hmux⟩, hfails⟩))
        · exact adds_of_ok (handle_of_reading hreading) ht (.timedOut htalks hunanswered)

end DaphneZmq.CurrentMonitor
