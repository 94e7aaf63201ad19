import DaphneZmq.Theorems.GainBias

/-! What becomes of one output of the chips of the gains and biases while others are set. A GO is meant for the place of
the last word before it, but it loads all three chips: an output that no GO is meant for can only be loaded with what its
register still had for it. -/

namespace DaphneZmq
open Lib Lib.Device
namespace GainBias
open Dac Handlers

/-- Between two states, a GO that is meant for an output loads a code into it. -/
def Programs (o : Output) (s t : ServerState) (code : UInt32) : Prop :=
  ∃ p ∈ o.place, ∃ pre w, s.writes <+: pre ∧ pre ++ [w] <+: t.writes ∧ IsGo w ∧ target pre = some p ∧ dataOf p.1 w.before = code

/-- An output is not programmed: it holds what it held, or what its register had for it, and its value is kept. -/
structure LeftAlone (o : Output) (s t : ServerState) : Prop where
  unprogrammed : ∀ code, ¬Programs o s t code
  level : ∀ levels : Levels, o.level (levels.after t.writes) = o.level (levels.after s.writes) ∨
    ∃ p ∈ o.place, channelOf p.1 s.cells = p.2 ∧ o.level (levels.after t.writes) = some (dataOf p.1 s.cells)
  kept : t.driver.state o.key = s.driver.state o.key

variable {b : Board} {s t u : ServerState} {writes ws ws' : List (Write Nat UInt32)} {code : UInt32} {o : Output}
  {p : Chip × Nat} {Q Q' : Chip × Nat → Write Nat UInt32 → Prop}

/-! ### The log -/

theorem target_append_some (h : target ws = some p) : target (writes ++ ws) = some p := by
  unfold target at *
  rw [List.reverse_append, List.findSome?_append, h, Option.some_or]

/-- Every GO of the log comes after a word for a place of a chip, with which it is as `Q` says. -/
def EachGo (Q : Chip × Nat → Write Nat UInt32 → Prop) (writes : List (Write Nat UInt32)) : Prop :=
  ∀ pre w, pre ++ [w] <+: writes → IsGo w → ∃ p, target pre = some p ∧ Q p w

theorem EachGo.mono (h : EachGo Q writes) (hQ : ∀ p w, Q p w → Q' p w) : EachGo Q' writes := by
  intro pre w hinit hgo
  obtain ⟨p, hp, hw⟩ := h pre w hinit hgo
  exact ⟨p, hp, hQ p w hw⟩

theorem EachGo.of_not_go (h : ∀ w ∈ writes, ¬IsGo w) : EachGo Q writes := by
  intro pre w hinit hgo
  exact absurd hgo (h w (hinit.subset (by simp)))

theorem EachGo.append (h : EachGo Q ws) (h' : EachGo Q ws') : EachGo Q (ws ++ ws') := by
  intro pre w hinit hgo
  rcases List.prefix_or_prefix_of_prefix hinit (List.prefix_append ws ws') with hfirst | ⟨rest, hrest⟩
  · exact h pre w hfirst hgo
  · rcases List.eq_nil_or_concat rest with rfl | ⟨pre', w', rfl⟩
    · rw [List.append_nil] at hrest
      exact h pre w (hrest ▸ List.prefix_rfl) hgo
    · rw [List.concat_eq_append, ← List.append_assoc] at hrest
      obtain ⟨rfl, hw⟩ := List.append_inj' hrest rfl
      obtain rfl : w' = w := List.singleton_inj.mp hw
      rw [List.append_assoc, List.prefix_append_right_inj] at hinit
      obtain ⟨p, hp, hQ⟩ := h' pre' w' hinit hgo
      exact ⟨p, target_append_some hp, hQ⟩

/-- The GOs between two states. -/
def Goes (Q : Chip × Nat → Write Nat UInt32 → Prop) (s t : ServerState) : Prop :=
  ∃ ws, t.writes = s.writes ++ ws ∧ EachGo Q ws

theorem Goes.trans (h : Goes Q s t) (h' : Goes Q t u) : Goes Q s u := by
  obtain ⟨ws, hws, hgo⟩ := h
  obtain ⟨ws', hws', hgo'⟩ := h'
  exact ⟨ws ++ ws', by rw [hws', hws, List.append_assoc], hgo.append hgo'⟩

theorem Goes.mono (h : Goes Q s t) (hQ : ∀ p w, Q p w → Q' p w) : Goes Q' s t := by
  obtain ⟨ws, hws, hgo⟩ := h
  exact ⟨ws, hws, hgo.mono hQ⟩

theorem Goes.extends (h : Goes Q s t) : s.writes <+: t.writes := by
  obtain ⟨ws, hws, -⟩ := h
  exact ⟨ws, hws.symm⟩

/-- A code that is programmed is that of a GO for the output. -/
theorem Goes.programs (h : Goes Q s t) (hprograms : Programs o s t code) :
    ∃ p ∈ o.place, ∃ w, Q p w ∧ dataOf p.1 w.before = code := by
  obtain ⟨ws, hws, hgoes⟩ := h
  obtain ⟨p, hp, pre, w, ⟨pre', rfl⟩, hinit, hgo, htarget, hcode⟩ := hprograms
  rw [hws, List.append_assoc, List.prefix_append_right_inj] at hinit
  obtain ⟨q, hq, hQ⟩ := hgoes pre' w hinit hgo
  obtain rfl : q = p := Option.some.inj ((target_append_some hq).symm.trans htarget)
  exact ⟨q, hp, w, hQ, hcode⟩

theorem Programs.mono (h : Programs o t u code) (hs : s.writes <+: t.writes) {v : ServerState} (hu : u.writes <+: v.writes) :
    Programs o s v code := by
  obtain ⟨p, hp, pre, w, hpre, hinit, hgo, htarget, hcode⟩ := h
  exact ⟨p, hp, pre, w, hs.trans hpre, hinit.trans hu, hgo, htarget, hcode⟩

theorem Loaded.goes {value : UInt32} (h : Loaded p value s t)
    (hQ : ∀ w, (∀ chip : Chip, w.before chip.addr = t.cells chip.addr) → Q p w) : Goes Q s t := by
  obtain ⟨ws, go, clear, hwrites, hne, hws, hgo, hbefore, hclear, hnotGo⟩ := h.writes
  have hnot : ∀ w ∈ ws, ¬IsGo w := fun w hw h => addr_ne_control p.1 ((hws w hw).1.symm.trans h.1)
  refine ⟨ws ++ [go] ++ [clear], by rw [hwrites, List.append_assoc, List.append_assoc, List.append_assoc], ?_⟩
  intro pre w hinit hw
  rcases List.prefix_concat_iff.mp hinit with heq | hinit
  · obtain ⟨-, hlast⟩ := List.append_inj' heq rfl
    cases List.singleton_inj.mp hlast
    exact absurd hw hnotGo
  rcases List.prefix_concat_iff.mp hinit with heq | hinit
  · obtain ⟨rfl, hlast⟩ := List.append_inj' heq rfl
    cases List.singleton_inj.mp hlast
    have htarget : target ([] ++ pre) = some p := target_append hne hws
    exact ⟨p, htarget, hQ _ hbefore⟩
  · exact absurd hw (hnot w (hinit.subset (by simp)))

theorem Loaded.programs {value : UInt32} (ho : o.place = some p) (h : Loaded p value s t) : Programs o s t value := by
  obtain ⟨ws, go, clear, hwrites, hne, hws, hgo, hbefore, -, -⟩ := h.writes
  refine ⟨p, ho, s.writes ++ ws, go, List.prefix_append _ _, ?_, hgo, target_append hne hws, ?_⟩
  · rw [hwrites]
    exact List.prefix_append _ _
  · rw [dataOf, hbefore p.1]
    exact h.data

/-! ### Parts that leave an output alone -/

/-- The output at a place is not set: GOs are for other places, and load into it what its register had for it, if they load
anything into it. -/
structure Beside (o : Output) (p : Chip × Nat) (s t : ServerState) : Prop where
  goes : Goes (fun q _ => q ≠ p) s t
  level : ∀ levels : Levels, levels.after t.writes p.1 p.2 = levels.after s.writes p.1 p.2 ∨
    channelOf p.1 s.cells = p.2 ∧ levels.after t.writes p.1 p.2 = dataOf p.1 s.cells
  register : channelOf p.1 t.cells = p.2 → channelOf p.1 s.cells = p.2 ∧ dataOf p.1 t.cells = dataOf p.1 s.cells
  kept : t.driver.state o.key = s.driver.state o.key

theorem Beside.trans (h : Beside o p s t) (h' : Beside o p t u) : Beside o p s u := by
  refine ⟨h.goes.trans h'.goes, fun levels => ?_, fun hchannel => ?_, h'.kept.trans h.kept⟩
  · rcases h'.level levels with hsame | ⟨hchannel, hdata⟩
    · rw [hsame]
      exact h.level levels
    · obtain ⟨hbefore, hword⟩ := h.register hchannel
      exact Or.inr ⟨hbefore, hdata.trans hword⟩
  · obtain ⟨hmid, hword⟩ := h'.register hchannel
    obtain ⟨hbefore, hword'⟩ := h.register hmid
    exact ⟨hbefore, hword.trans hword'⟩

theorem Beside.of_apart (h : Apart IsLevel view s t) : Beside o p s t := by
  obtain ⟨ws, hws, hnot⟩ := h.writes
  have hnotGo : ∀ w ∈ ws, ¬IsGo w := fun w hw hgo => hnot w hw (Or.inl hgo.1)
  have hcell : t.cells p.1.addr = s.cells p.1.addr := h.cells _ (Or.inr ⟨p.1, rfl⟩)
  refine ⟨⟨ws, hws, .of_not_go hnotGo⟩, fun levels => Or.inl ?_, fun hchannel => ?_, congrFun h.view_eq o⟩
  · rw [hws, after_append, after_of_not_go hnotGo]
  · rw [channelOf, hcell] at hchannel
    exact ⟨hchannel, by rw [dataOf, hcell, dataOf]⟩

def besideOutput (o : Output) (p : Chip × Nat) : Effect Nat UInt32 Daphne where
  Rel := Beside o p
  refl _ := .of_apart (.of_quiet ⟨rfl, rfl, rfl⟩)
  trans := Beside.trans
  tick _ := .of_apart (.of_quiet ⟨rfl, rfl, rfl⟩)

theorem does_besideOutput {α : Type} {m : Prog Nat UInt32 Daphne α} (h : Does (.apart IsLevel view) m) : Does (besideOutput o p) m :=
  h.coarsen fun _ _ ht => Beside.of_apart ht

theorem Beside.of_loaded {q : Chip × Nat} {value : UInt32} (hq : q ≠ p) (h : Loaded q value s t) : Beside o p s t := by
  have hword (hchannel : channelOf p.1 t.cells = p.2) : channelOf p.1 s.cells = p.2 ∧ dataOf p.1 t.cells = dataOf p.1 s.cells := by
    have hcell : t.cells p.1.addr = s.cells p.1.addr := by
      refine h.cells p.1 fun hchip => hq ?_
      rw [hchip, h.channel] at hchannel
      exact Prod.ext hchip.symm hchannel
    rw [channelOf, hcell] at hchannel
    exact ⟨hchannel, by rw [dataOf, hcell, dataOf]⟩
  refine ⟨Loaded.goes h fun _ _ => hq, fun levels => ?_, hword, by rw [h.driver]⟩
  rw [h.after, load_apply]
  by_cases hchannel : p.2 = channelOf p.1 t.cells
  · obtain ⟨hbefore, hdata⟩ := hword hchannel.symm
    rw [if_pos hchannel]
    exact Or.inr ⟨hbefore, hdata⟩
  · rw [if_neg hchannel]
    exact Or.inl rfl

section Others
variable {o' : Output} {value : UInt32} {afe : Nat} (hp : o.place = some p)
include hp

/-- The write of another output. -/
theorem does_besideOutput_other (hne : o' ≠ o) {q : Chip × Nat} (hq : o'.place = some q) (hvalue : value ≤ 4095) :
    Does (besideOutput o p) (setDacGeneral b.env o'.entry.1 o'.entry.2.1 o'.entry.2.2.1 o'.entry.2.2.2 value) := by
  obtain ⟨hentry, hlt⟩ := entry_eq hq
  have hplace : q ≠ p := by
    rintro rfl
    exact hne (place_inj hq hp)
  rw [hentry]
  refine ⟨fun s => wp_mono (wp_setDacGeneral hlt hvalue s) (fun _ t ht => .of_loaded hplace ht) fun _ t ht => ?_⟩
  rcases ht with ⟨-, hquiet | hloaded⟩
  · exact .of_apart (.of_quiet hquiet)
  · exact .of_loaded hplace hloaded

omit hp in
theorem does_besideOutput_setState {key : StateKey} (hkey : o.key ≠ key) (value : UInt32) :
    Does (besideOutput o p) (Daphne.setState key value) := by
  refine does_modifyDriver fun s => ⟨⟨[], (List.append_nil _).symm, .of_not_go (by simp)⟩, fun _ => Or.inl rfl, fun h => ⟨h, rfl⟩, ?_⟩
  exact Function.update_of_ne hkey _ _

theorem does_besideOutput_setGain (hne : Output.gain afe ≠ o) (hafe : afe < 5) (hvalue : value ≤ 4095) :
    Does (besideOutput o p) (setGain b afe value) := by
  obtain ⟨q, hq⟩ := (exists_place hafe).1
  refine ((does_besideOutput_other hp hne hq hvalue).bind fun _ => does_pure _).bind fun _ => ?_
  exact does_checkAfe (does_besideOutput_setState (fun h => hne (key_inj h).symm) value) afe

theorem does_besideOutput_setBias (hne : Output.bias afe ≠ o) (hafe : afe < 5) (hvalue : value ≤ 4095) :
    Does (besideOutput o p) (setBias b afe value) := by
  obtain ⟨q, hq⟩ := (exists_place hafe).2
  refine ((does_besideOutput_other hp hne hq hvalue).bind fun _ => does_pure _).bind fun _ => ?_
  exact does_checkAfe (does_besideOutput_setState (fun h => hne (key_inj h).symm) value) afe

theorem does_besideOutput_setBiasControl (hne : Output.hv ≠ o) (hvalue : value ≤ 4095) (enable : Bool) :
    Does (besideOutput o p) (setBiasControl b value enable) := by
  have henable : ¬IsLevel biasEnable.addr := by
    rintro (h | ⟨chip, h⟩)
    · cases h
    · cases chip <;> cases h
  have hdac : Does (besideOutput o p) (Dac.setDacHvBias b.env value false false) :=
    does_besideOutput_other hp hne (show Output.hv.place = some (.U5, 2) from rfl) hvalue
  refine hdac.bind fun _ => ?_
  refine (does_besideOutput (Reg.does_apart_writeBits henable _)).bind fun _ => ?_
  exact (does_besideOutput_setState (fun h => hne (key_inj h).symm) value).bind fun _ => does_pure _

theorem Beside.leftAlone (h : Beside o p s t) : LeftAlone o s t := by
  refine ⟨fun code hprograms => ?_, fun levels => ?_, h.kept⟩
  · obtain ⟨q, hq, w, hne, -⟩ := h.goes.programs hprograms
    rw [hp] at hq
    exact hne (Option.some.inj hq).symm
  · have hlevel (levels : Levels) : o.level levels = some (levels p.1 p.2) := by rw [Output.level, hp, Option.map_some]
    rcases h.level levels with hsame | ⟨hchannel, hdata⟩
    · exact Or.inl (by rw [hlevel, hlevel, hsame])
    · exact Or.inr ⟨p, hp, hchannel, by rw [hlevel, hdata]⟩

end Others
end GainBias
end DaphneZmq
