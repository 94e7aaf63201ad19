import DaphneZmq.Theorems.MezzCalibration

/-! What a configuration that fails leaves with the driver. The values are stored one after the other, each once it has been
checked, and the chips are programmed with what is stored. So the values in front of the first bad one stay, or all of them if
the hardware fails. -/

namespace DaphneZmq
open Lib.Device

namespace MezzCalibration
open HdMezz (Reg Rail)
open MezzBus (storeAt)

/-- A value of a block, by the rail that it is for. -/
abbrev Slot := Setting × Rail

/-- The values of a block in the order in which a request sets them. -/
def slots : List Slot :=
  [(.rShunt, .v5), (.rShunt, .v3v3), (.maxCurrentScale, .v5), (.maxCurrentScale, .v3v3), (.maxCurrentShutdown, .v5),
    (.maxCurrentShutdown, .v3v3)]

section
variable {K : Type} [OfScientific K]

def Calibration.at (c : Calibration K) (afeBlock : Nat) (slot : Slot) : K := c.get slot.1 slot.2 afeBlock

def BlockConfiguration.value (request : BlockConfiguration K) : Slot → K
  | (.rShunt, .v5) => request.r_shunt_5V
  | (.rShunt, .v3v3) => request.r_shunt_3V3
  | (.maxCurrentScale, .v5) => request.max_current_5V_scale
  | (.maxCurrentScale, .v3v3) => request.max_current_3V3_scale
  | (.maxCurrentShutdown, .v5) => request.max_current_5V_shutdown
  | (.maxCurrentShutdown, .v3v3) => request.max_current_3V3_shutdown

variable [LE K] [DecidableLE K]

/-- The values in front of the first one that is refused. -/
def BlockConfiguration.accepted (request : BlockConfiguration K) : List Slot := slots.takeWhile fun slot => ¬request.value slot ≤ 0.0

/-- The block has these values already, or there is no such block. -/
def Repeats (request : BlockConfiguration K) (s : DriverState K) : Prop :=
  request.afeBlock > 4 ∨ ∀ slot ∈ request.accepted, s.driver.at request.afeBlock slot = request.value slot

/-- The slots whose values a request stores. -/
def BlockConfiguration.storedSlots (request : BlockConfiguration K) : List Slot := if request.afeBlock > 4 then [] else request.accepted

theorem repeats_iff (request : BlockConfiguration K) (s : DriverState K) :
    Repeats request s ↔ ∀ slot ∈ request.storedSlots, s.driver.at request.afeBlock slot = request.value slot := by
  unfold Repeats BlockConfiguration.storedSlots
  by_cases hblock : request.afeBlock > 4
  · simp only [hblock, true_or, if_true, List.not_mem_nil, false_imp_iff, implies_true]
  · rw [if_neg hblock, or_iff_right hblock]

theorem storedSlots_nodup (request : BlockConfiguration K) : request.storedSlots.Nodup := by
  have hslots : slots.Nodup := by decide
  unfold BlockConfiguration.storedSlots
  split
  · exact List.nodup_nil
  · exact hslots.sublist (List.takeWhile_sublist _)

end

/-- The configuration and what is derived from it are the same for every block, and so is what a client reads of it. -/
structure KeepsCalibration {K : Type} [OfScientific K] (s t : DriverState K) : Prop where
  calibration : t.driver.toCalibration = s.driver.toCalibration
  reads : ∀ afeBlock, readHDMezzBlockConfig afeBlock t.driver = readHDMezzBlockConfig afeBlock s.driver

theorem KeepsCalibration.of_eq {K : Type} [OfScientific K] {s t : DriverState K} (h : t.driver.toCalibration = s.driver.toCalibration) : KeepsCalibration s t :=
  ⟨h, fun afeBlock => by simp only [readHDMezzBlockConfig, h]⟩

/-! ### The setters one after the other -/

theorem storeAt_self {K : Type} (values : Rail → Nat → K) (rail : Rail) (afeBlock : Nat) :
    storeAt values rail afeBlock (values rail afeBlock) = values := by
  funext rail' block
  unfold storeAt
  split
  · rename_i h
    rw [h.1, h.2]
  · rfl

section
variable {K : Type} [OfScientific K] [Mul K] [Div K] {conv : Conversions K} {request : BlockConfiguration K} {s : DriverState K}

/-- The state after the value of a slot has been stored. -/
def storedSlot (conv : Conversions K) (request : BlockConfiguration K) (s : DriverState K) (slot : Slot) : DriverState K :=
  stored conv slot.1 request.afeBlock (request.value slot) slot.2 s

theorem at_storedSlot (slot slot' : Slot) (block : Nat) : (storedSlot conv request s slot).driver.at block slot' =
    if slot' = slot ∧ block = request.afeBlock then request.value slot else s.driver.at block slot' := by
  have hkept : (storedSlot conv request s slot).driver.at block slot' =
      (s.driver.set slot.1 slot.2 request.afeBlock (request.value slot)).get slot'.1 slot'.2 block := by
    unfold Calibration.at
    cases slot'.1 <;> rfl
  rw [hkept, Calibration.get_set]
  by_cases h : slot' = slot ∧ block = request.afeBlock
  · obtain ⟨rfl, rfl⟩ := h
    rw [if_pos ⟨rfl, rfl, rfl⟩, if_pos ⟨rfl, rfl⟩]
  · rw [if_neg h, if_neg fun h' => h ⟨Prod.ext h'.1 h'.2.1, h'.2.2⟩]
    rfl

theorem at_foldl_of_not_mem {slot : Slot} {block : Nat} : ∀ {slots : List Slot} {s : DriverState K},
    (slot ∈ slots → block ≠ request.afeBlock) →
      (slots.foldl (storedSlot conv request) s).driver.at block slot = s.driver.at block slot
  | [], _, _ => rfl
  | x :: xs, s, h => by
    rw [List.foldl_cons, at_foldl_of_not_mem fun hmem => h (List.mem_cons_of_mem x hmem), at_storedSlot, if_neg]
    rintro ⟨rfl, hblock⟩
    exact h (List.mem_cons_self ..) hblock

/-- Each of the slots has its value in the end. -/
theorem at_foldl_of_mem {slot : Slot} : ∀ {slots : List Slot} {s : DriverState K}, slots.Nodup → slot ∈ slots →
    (slots.foldl (storedSlot conv request) s).driver.at request.afeBlock slot = request.value slot
  | x :: xs, s, hnodup, hmem => by
    obtain ⟨hnot, hnodup⟩ := List.nodup_cons.mp hnodup
    rw [List.foldl_cons]
    rcases List.mem_cons.mp hmem with rfl | hmem
    · rw [at_foldl_of_not_mem fun h => absurd h hnot, at_storedSlot, if_pos ⟨rfl, rfl⟩]
    · exact at_foldl_of_mem hnodup hmem

omit [Mul K] [Div K] in
theorem Calibration.set_get (c : Calibration K) (setting : Setting) (rail : Rail) (afeBlock : Nat) :
    c.set setting rail afeBlock (c.get setting rail afeBlock) = c := by
  cases setting <;> simp only [Calibration.set, Calibration.get, storeAt_self]

/-- A value that the block has already changes nothing. -/
theorem storedSlot_of_repeats {slot : Slot} (hderived : s.driver.toCalibration.derived conv = s.driver.toCalibration)
    (h : s.driver.at request.afeBlock slot = request.value slot) : storedSlot conv request s slot = s := by
  have hset : s.driver.set slot.1 slot.2 request.afeBlock (request.value slot) = s.driver.toCalibration := by
    rw [← h]
    exact Calibration.set_get ..
  rw [storedSlot, stored, hset, hderived]

theorem foldl_of_repeats (hderived : s.driver.toCalibration.derived conv = s.driver.toCalibration) : ∀ {slots : List Slot},
    (∀ slot ∈ slots, s.driver.at request.afeBlock slot = request.value slot) → slots.foldl (storedSlot conv request) s = s
  | [], _ => rfl
  | x :: xs, h => by
    rw [List.foldl_cons, storedSlot_of_repeats hderived (h x (List.mem_cons_self ..)),
      foldl_of_repeats hderived fun slot hslot => h slot (List.mem_cons_of_mem x hslot)]

variable [LE K] [DecidableLE K]

/-- The setters of a request store the values in front of the first one that is refused. -/
theorem forM_setValue (conv : Conversions K) (hblock : ¬request.afeBlock > 4) : ∀ (slots : List Slot) (s : DriverState K),
    slots.takeWhile (fun slot => ¬request.value slot ≤ 0.0) = slots ∧
        (slots.forM fun slot => setValue conv slot.1 request.afeBlock (request.value slot) slot.2) s =
          .ok () (slots.foldl (storedSlot conv request) s) ∨
      ∃ e, (slots.forM fun slot => setValue conv slot.1 request.afeBlock (request.value slot) slot.2) s =
        .error e ((slots.takeWhile fun slot => ¬request.value slot ≤ 0.0).foldl (storedSlot conv request) s)
  | [], s => Or.inl ⟨rfl, rfl⟩
  | slot :: slots, s => by
    show (_ ∧ (setValue conv slot.1 request.afeBlock (request.value slot) slot.2 >>= fun _ =>
      slots.forM fun slot => setValue conv slot.1 request.afeBlock (request.value slot) slot.2) s = _) ∨
      ∃ e, (setValue conv slot.1 request.afeBlock (request.value slot) slot.2 >>= fun _ =>
        slots.forM fun slot => setValue conv slot.1 request.afeBlock (request.value slot) slot.2) s = _
    rcases setValue_cases conv slot.1 request.afeBlock (request.value slot) slot.2 s with ⟨hrefused, e, he⟩ | ⟨haccepted, hok⟩
    · have hvalue := hrefused.resolve_left hblock
      refine Or.inr ⟨e, ?_⟩
      rw [bind_error he, List.takeWhile_cons_of_neg (by simpa using hvalue)]
      rfl
    · have hvalue : ¬request.value slot ≤ 0.0 := fun h => haccepted (Or.inr h)
      rw [bind_ok hok, List.takeWhile_cons_of_pos (by simpa using hvalue), List.foldl_cons, List.foldl_cons, List.cons.injEq]
      rcases forM_setValue conv hblock slots (storedSlot conv request s slot) with ⟨htake, hrun⟩ | ⟨e, hrun⟩
      · exact Or.inl ⟨⟨rfl, htake⟩, hrun⟩
      · exact Or.inr ⟨e, hrun⟩

/-! ### Requests -/

variable {env : Env Reg UInt16}

theorem tryConfigure_eq (hblock : ¬request.afeBlock > 4) : tryConfigure conv env request =
    (slots.forM fun slot => setValue conv slot.1 request.afeBlock (request.value slot) slot.2) >>= fun _ =>
      configureHdMezzAfeBlock conv env request.afeBlock := by
  unfold tryConfigure
  rw [if_neg hblock]
  simp only [slots, List.forM, bind_assoc, pure_bind]
  rfl

/-- What is kept after a request, whether the hardware does its part or not. -/
theorem calibration_configure (conv : Conversions K) (env : Env Reg UInt16) (request : BlockConfiguration K) (s : DriverState K) :
    (configureHDMezzBlock conv env request s).2.driver.toCalibration =
        (request.storedSlots.foldl (storedSlot conv request) s).driver.toCalibration ∧
      ((configureHDMezzBlock conv env request s).1.ok = true → ¬request.afeBlock > 4 ∧ request.accepted = slots) := by
  unfold configureHDMezzBlock BlockConfiguration.storedSlots
  by_cases hblock : request.afeBlock > 4
  · rw [tryConfigure, if_pos hblock, if_pos hblock]
    exact ⟨rfl, nofun⟩
  rw [tryConfigure_eq hblock, if_neg hblock]
  rcases forM_setValue conv hblock slots s with ⟨hall, hrun⟩ | ⟨e, hrun⟩
  · have hall : request.accepted = slots := hall
    have hkeeps : Does (.apart (fun _ => False) Members.toCalibration) (configureHdMezzAfeBlock conv env request.afeBlock) :=
      does_configureHdMezzAfeBlock
    have hhardware := hkeeps.run (slots.foldl (storedSlot conv request) s)
    rw [bind_ok hrun, hall]
    cases hm : configureHdMezzAfeBlock conv env request.afeBlock (slots.foldl (storedSlot conv request) s) with
    | ok a t => exact ⟨(wp_ok hhardware hm).view_eq, fun _ => ⟨hblock, rfl⟩⟩
    | error e t => exact ⟨(wp_error hhardware hm).view_eq, fun h => by cases h⟩
  · rw [bind_error hrun]
    exact ⟨rfl, nofun⟩

/-- A request keeps the configuration if and only if it repeats what it stores. -/
theorem keeps_iff_repeats (hderived : s.driver.toCalibration.derived conv = s.driver.toCalibration) :
    KeepsCalibration s (configureHDMezzBlock conv env request s).2 ↔ Repeats request s := by
  obtain ⟨hkept, -⟩ := calibration_configure conv env request s
  rw [repeats_iff]
  constructor
  · rintro ⟨hsame, -⟩ slot hslot
    have hvalue : (request.storedSlots.foldl (storedSlot conv request) s).driver.at request.afeBlock slot = request.value slot :=
      at_foldl_of_mem (storedSlots_nodup request) hslot
    rw [← hvalue, ← hkept, hsame]
  · intro hrepeats
    exact .of_eq (hkept.trans (congrArg (fun t => t.driver.toCalibration) (foldl_of_repeats hderived hrepeats)))

end

/-! ### Runs -/

section
variable {K : Type} [OfScientific K] [Mul K] [Div K] [LE K] [DecidableLE K]

/-- Runs in which the requests that fail repeat what the block has, with the values of the last request for each block that has not
failed, or those of the constructor. -/
inductive Ran (conv : Conversions K) (env : Env Reg UInt16) : (Nat → Slot → K) → DriverState K → Prop where
  | start (cells : Reg → UInt16) (reads : Reg → Nat) (accesses : Nat) :
      Ran conv env (constructed conv).at ⟨cells, reads, accesses, [], constructed conv⟩
  | configured {last : Nat → Slot → K} {s : DriverState K} (request : BlockConfiguration K) (hs : Ran conv env last s)
      (hok : (configureHDMezzBlock conv env request s).1.ok = true) :
      Ran conv env (Function.update last request.afeBlock request.value) (configureHDMezzBlock conv env request s).2
  | failed {last : Nat → Slot → K} {s : DriverState K} (request : BlockConfiguration K) (hs : Ran conv env last s)
      (hfails : (configureHDMezzBlock conv env request s).1.ok = false) (hrepeats : Repeats request s) :
      Ran conv env last (configureHDMezzBlock conv env request s).2
  | other {last : Nat → Slot → K} {s t : DriverState K} (hs : Ran conv env last s)
      (h : t.driver.toCalibration = s.driver.toCalibration) : Ran conv env last t

variable {conv : Conversions K} {env : Env Reg UInt16} {last : Nat → Slot → K} {s : DriverState K}

theorem Ran.reached (h : Ran conv env last s) : Reached conv env s := by
  induction h with
  | start cells reads accesses => exact .start cells reads accesses
  | configured request _ _ ih => exact .configure request ih
  | failed request _ _ _ ih => exact .configure request ih
  | other _ heq ih => exact .other ih heq

theorem Ran.at_eq (h : Ran conv env last s) (afeBlock : Nat) (slot : Slot) : s.driver.at afeBlock slot = last afeBlock slot := by
  induction h with
  | start cells reads accesses => rfl
  | @configured last s request hs hok ih =>
    obtain ⟨hkept, haccepted⟩ := calibration_configure conv env request s
    obtain ⟨hblock, hall⟩ := haccepted hok
    have hslots : request.storedSlots = slots := by rw [BlockConfiguration.storedSlots, if_neg hblock, hall]
    rw [hkept, hslots]
    by_cases hsame : afeBlock = request.afeBlock
    · subst hsame
      have hmem : slot ∈ slots := by
        obtain ⟨setting, rail⟩ := slot
        cases setting <;> cases rail <;> decide
      rw [at_foldl_of_mem (by decide) hmem, Function.update_self]
    · rw [at_foldl_of_not_mem fun _ => hsame, Function.update_of_ne hsame, ih]
  | failed request hs _ hrepeats ih =>
    rw [((keeps_iff_repeats hs.reached.derived).mpr hrepeats).calibration]
    exact ih
  | other _ heq ih =>
    rw [heq]
    exact ih

/-- A configuration that fails keeps what the driver has for the blocks if and only if it repeats what it stores. If all those
that fail do, then the driver always has the values of the last one that did not. -/
theorem configureHDMezzBlock_keeps_iff (conv : Conversions K) (env : Env Reg UInt16) :
    (∀ (s : DriverState K) (request : BlockConfiguration K), Reached conv env s →
      (configureHDMezzBlock conv env request s).1.ok = false →
        (KeepsCalibration s (configureHDMezzBlock conv env request s).2 ↔ Repeats request s)) ∧
      ∀ (last : Nat → Slot → K) (s : DriverState K), Ran conv env last s →
        s.driver.toCalibration.derived conv = s.driver.toCalibration ∧
          ∀ afeBlock slot, s.driver.at afeBlock slot = last afeBlock slot :=
  ⟨fun _ _ hs _ => keeps_iff_repeats hs.derived, fun _ _ h => ⟨h.reached.derived, h.at_eq⟩⟩

end

/-! A request for a block that is not enabled, and one whose first value is not positive. -/

def ofDisabled : BlockConfiguration ℚ where
  afeBlock := 1
  r_shunt_5V := 0.1
  r_shunt_3V3 := 0.3
  max_current_5V_scale := 0.2
  max_current_3V3_scale := 0.2
  max_current_5V_shutdown := 0.12
  max_current_3V3_shutdown := 0.01

def ofNothing : BlockConfiguration ℚ := {}

/-- The request fails, since the hardware step selects no block that is not enabled, and from then on a client reads its shunt
resistance. -/
theorem ofDisabled_stays :
    (configureHDMezzBlock truncating.toConversions quietBus.toEnv ofDisabled enabled).1.ok = false ∧
      (configureHDMezzBlock truncating.toConversions quietBus.toEnv ofDisabled enabled).2.writes = [] ∧
      (readHDMezzBlockConfig 1 (configureHDMezzBlock truncating.toConversions quietBus.toEnv ofDisabled enabled).2.driver).response.r_shunt_5V =
        0.1 ∧
      ¬KeepsCalibration enabled (configureHDMezzBlock truncating.toConversions quietBus.toEnv ofDisabled enabled).2 := by
  refine ⟨by decide +kernel, by decide +kernel, by decide +kernel, fun h => ?_⟩
  have hshunt := congrArg (fun c => c.r_shunt Rail.v5 1) h.calibration
  exact absurd hshunt (by decide +kernel)

theorem configureHDMezzBlock_keeps_iff_nothing :
    KeepsCalibration enabled (configureHDMezzBlock truncating.toConversions quietBus.toEnv ofNothing enabled).2 ∧
      ∀ afeBlock slot, (configureHDMezzBlock truncating.toConversions quietBus.toEnv ofNothing enabled).2.driver.at afeBlock slot =
        (constructed truncating.toConversions).at afeBlock slot := by
  have hfails : (configureHDMezzBlock truncating.toConversions quietBus.toEnv ofNothing enabled).1.ok = false := by decide +kernel
  have hnone : ofNothing.accepted = [] := by decide +kernel
  have hrepeats : Repeats ofNothing enabled := Or.inr fun slot hslot => by
    rw [hnone] at hslot
    cases hslot
  have hran : Ran truncating.toConversions quietBus.toEnv (constructed truncating.toConversions).at enabled :=
    .other (.start (fun _ => 0) (fun _ => 0) 0) rfl
  obtain ⟨hiff, hruns⟩ := configureHDMezzBlock_keeps_iff truncating.toConversions quietBus.toEnv
  exact ⟨(hiff enabled ofNothing reached_enabled hfails).mpr hrepeats, (hruns _ _ (.failed ofNothing hran hfails hrepeats)).2⟩

end MezzCalibration
end DaphneZmq
