import Mathlib.Data.List.Basic

/-! # Overlays of keyed lists

A list of names is laid over a list of entries: the entry under each name, a new one at the end of the list where there
is none, is updated from the position of the name. Entries under other keys stay as they are, and an update that keeps
what it has made keeps the whole list. -/

namespace Lib.Overlay

variable {ε ν κ α : Type} [DecidableEq κ] (key : α → κ)

theorem bind_eq_ok {β γ : Type} {x : Except ε β} {f : β → Except ε γ} {c : γ} :
    x >>= f = .ok c ↔ ∃ b, x = .ok b ∧ f b = .ok c := by
  cases x <;> simp [bind, Except.bind]

/-- The first entry under a key. -/
def entry (k : κ) (l : List α) : Option α := l.find? fun a => decide (key a = k)

/-- The first entry under a key, between what stands before it and what stands behind it. -/
def locate (k : κ) : List α → Option (List α × α × List α)
  | [] => none
  | a :: l => if key a = k then some ([], a, l) else (locate k l).map fun z => (a :: z.1, z.2)

/-- The place of the entry under a key, at the end of the list when it has to be made. -/
def ensure (blank : κ → Except ε α) (k : κ) (l : List α) : Except ε (List α × α × List α) :=
  match locate key k l with
  | some z => .ok z
  | none => (blank k).map fun a => (l, a, [])

/-- One round: the entry under the name, updated in its place. -/
def step (ident : ν → Except ε κ) (place : κ → List α → Except ε (List α × α × List α)) (update : Nat → α → Except ε α)
    (l : List α) (name : ν × Nat) : Except ε (List α) := do
  let k ← ident name.1
  let (before, a, after) ← place k l
  let b ← update name.2 a
  return before ++ b :: after

def overlay (ident : ν → Except ε κ) (place : κ → List α → Except ε (List α × α × List α)) (update : Nat → α → Except ε α)
    (names : List ν) (l : List α) : Except ε (List α) :=
  names.zipIdx.foldlM (step ident place update) l

/-! ### Entries -/

variable {key} {k k' : κ} {l l' before after : List α} {a b : α}

theorem entry_append : entry key k (l ++ l') = (entry key k l).or (entry key k l') := List.find?_append

theorem entry_cons : entry key k (a :: l) = if key a = k then some a else entry key k l := by
  rw [entry, List.find?_cons]
  by_cases h : key a = k
  · simp [h]
  · simp [h, entry]

theorem entry_eq_none : entry key k l = none ↔ ∀ a ∈ l, key a ≠ k := by
  simp [entry, List.find?_eq_none]

theorem key_of_entry (h : entry key k l = some a) : key a = k := by
  simpa using List.find?_some h

theorem entry_map {f : α → α} (hf : ∀ a, key (f a) = key a) : entry key k (l.map f) = (entry key k l).map f := by
  induction l with
  | nil => rfl
  | cons a l ih =>
    rw [List.map_cons, entry_cons, entry_cons, hf, ih]
    split
    · rfl
    · rfl

/-- Entries that are made with distinct keys. -/
theorem entry_made {ι : Type} {f : ι → α} {is : List ι} {i : ι} (hi : i ∈ is) (hinj : ∀ j ∈ is, key (f j) = key (f i) → j = i) :
    entry key (key (f i)) (is.map f) = some (f i) := by
  rcases hentry : entry key (key (f i)) (is.map f) with - | a
  · exact absurd rfl (entry_eq_none.mp hentry (f i) (List.mem_map_of_mem hi))
  · obtain ⟨j, hj, rfl⟩ := List.mem_map.mp (List.mem_of_find?_eq_some hentry)
    rw [hinj j hj (key_of_entry hentry)]

/-- A list in which the entry under `k` has been replaced. -/
theorem entry_replaced (hb : key b = key a) :
    entry key k' (before ++ b :: after) = if key a = k' then (entry key k' before).or (some b)
      else entry key k' (before ++ a :: after) := by
  simp only [entry_append, entry_cons, hb]
  by_cases h : key a = k' <;> simp [h]

theorem locate_eq_some (h : locate key k l = some (before, a, after)) :
    l = before ++ a :: after ∧ key a = k ∧ entry key k before = none := by
  induction l generalizing before with
  | nil => cases h
  | cons c l ih =>
    rw [locate] at h
    by_cases hc : key c = k
    · rw [if_pos hc] at h
      cases h
      exact ⟨rfl, hc, rfl⟩
    · rw [if_neg hc, Option.map_eq_some_iff] at h
      obtain ⟨⟨before', z⟩, hz, h⟩ := h
      cases h
      obtain ⟨hl, ha, hnone⟩ := ih hz
      exact ⟨congrArg (c :: ·) hl, ha, by rw [entry_cons, if_neg hc, hnone]⟩

theorem locate_eq_none (h : locate key k l = none) : entry key k l = none := by
  induction l with
  | nil => rfl
  | cons c l ih =>
    rw [locate] at h
    by_cases hc : key c = k
    · rw [if_pos hc] at h
      cases h
    · rw [if_neg hc, Option.map_eq_none_iff] at h
      rw [entry_cons, if_neg hc, ih h]

/-- What is under a key before a round: its entry, or a new one. -/
def base (key : α → κ) (blank : κ → Except ε α) (k : κ) (l : List α) : Except ε α :=
  match entry key k l with
  | some a => .ok a
  | none => blank k

theorem base_of_entry {blank : κ → Except ε α} (h : entry key k l = some a) : base key blank k l = .ok a := by
  rw [base, h]

theorem base_congr {blank : κ → Except ε α} (h : entry key k l = entry key k l') : base key blank k l = base key blank k l' := by
  rw [base, h, base]

/-! ### One round -/

variable {ident : ν → Except ε κ} {blank : κ → Except ε α} {update : Nat → α → Except ε α}

/-- New entries have the key they are made for, and an update keeps the key of its entry. -/
structure Keyed (key : α → κ) (blank : κ → Except ε α) (update : Nat → α → Except ε α) : Prop where
  blank : ∀ {k a}, blank k = .ok a → key a = k
  update : ∀ {i a b}, update i a = .ok b → key b = key a

theorem Keyed.key_of_base (hk : Keyed key blank update) (h : base key blank k l = .ok a) : key a = k := by
  rw [base] at h
  split at h
  · next c hc =>
    cases h
    exact key_of_entry hc
  · exact hk.blank h

theorem ensure_eq_ok (h : ensure key blank k l = .ok (before, a, after)) :
    base key blank k l = .ok a ∧ entry key k before = none ∧
      (l = before ++ a :: after ∨ l = before ∧ after = [] ∧ entry key k l = none) := by
  rw [ensure] at h
  split at h
  · next z hz =>
    cases h
    obtain ⟨hl, ha, hbefore⟩ := locate_eq_some hz
    refine ⟨base_of_entry ?_, hbefore, .inl hl⟩
    rw [hl, entry_append, hbefore, entry_cons, if_pos ha]
    rfl
  · next hnone =>
    have hentry := locate_eq_none hnone
    rcases hblank : blank k with e | c
    · rw [hblank] at h
      cases h
    · rw [hblank] at h
      cases h
      exact ⟨by rw [base, hentry, hblank], hentry, .inr ⟨rfl, rfl, hentry⟩⟩

/-- What a round does to the list. -/
theorem step_eq_ok (hk : Keyed key blank update) {v : ν} {i : Nat} (h : step ident (ensure key blank) update l (v, i) = .ok l') :
    ∃ k a b, ident v = .ok k ∧ base key blank k l = .ok a ∧ update i a = .ok b ∧ entry key k l' = some b ∧
      (∀ k', k' ≠ k → entry key k' l' = entry key k' l) ∧ ((l.map key).Nodup → (l'.map key).Nodup) := by
  obtain ⟨k, hident, h⟩ := bind_eq_ok.mp h
  obtain ⟨⟨before, a, after⟩, hensure, h⟩ := bind_eq_ok.mp h
  obtain ⟨b, hupdate, h⟩ := bind_eq_ok.mp h
  cases h
  obtain ⟨hbase, hbefore, hl⟩ := ensure_eq_ok hensure
  have ha : key a = k := hk.key_of_base hbase
  have hb : key b = key a := hk.update hupdate
  refine ⟨k, a, b, hident, hbase, hupdate, ?_, ?_, ?_⟩
  · rw [entry_replaced hb, if_pos ha, hbefore]
    rfl
  · intro k' hne
    rw [entry_replaced hb, if_neg fun h => hne (h.symm.trans ha)]
    rcases hl with rfl | ⟨rfl, rfl, -⟩
    · rfl
    · rw [entry_append, entry_cons, if_neg fun h => hne (h.symm.trans ha)]
      exact Option.or_none
  · intro hnodup
    rcases hl with rfl | ⟨rfl, rfl, hnone⟩
    · simpa only [List.map_append, List.map_cons, hb] using hnodup
    · rw [List.map_append, List.map_cons, List.map_nil, hb, ha]
      refine List.nodup_append.mpr ⟨hnodup, List.nodup_cons.mpr ⟨List.not_mem_nil, List.nodup_nil⟩, ?_⟩
      rintro _ hmem _ hk rfl
      obtain ⟨c, hc, hck⟩ := List.mem_map.mp hmem
      exact entry_eq_none.mp hnone c hc (hck.trans (List.mem_singleton.mp hk))

/-- A round that finds what it would make leaves the list. -/
theorem step_fixed {v : ν} {i : Nat} (hident : ident v = .ok k) (hentry : entry key k l = some a) (hupdate : update i a = .ok a) :
    step ident (ensure key blank) update l (v, i) = .ok l := by
  rcases hz : locate key k l with - | ⟨before, c, after⟩
  · rw [locate_eq_none hz] at hentry
    cases hentry
  · obtain ⟨hl, hc, hbefore⟩ := locate_eq_some hz
    have hca : c = a := by
      rw [hl, entry_append, hbefore, entry_cons, if_pos hc] at hentry
      exact Option.some.inj hentry
    subst hca
    rw [step, hident, hl]
    simp only [bind, Except.bind, ensure, ← hl, hz, hupdate]
    rw [hl]
    rfl

/-! ### The whole overlay -/

theorem ident_of_overlay (hk : Keyed key blank update) {names : List ν} {n : Nat}
    (h : (names.zipIdx n).foldlM (step ident (ensure key blank) update) l = .ok l') : ∀ v ∈ names, ∃ k, ident v = .ok k := by
  induction names generalizing n l with
  | nil => exact fun v hv => absurd hv List.not_mem_nil
  | cons w names ih =>
    rw [List.zipIdx_cons, List.foldlM_cons] at h
    obtain ⟨l₁, hstep, h⟩ := bind_eq_ok.mp h
    obtain ⟨k, -, -, hident, -⟩ := step_eq_ok hk hstep
    intro v hv
    rcases List.mem_cons.mp hv with rfl | hv
    · exact ⟨k, hident⟩
    · exact ih h v hv

theorem nodup_overlay (hk : Keyed key blank update) {names : List ν} {n : Nat}
    (h : (names.zipIdx n).foldlM (step ident (ensure key blank) update) l = .ok l') (hnodup : (l.map key).Nodup) : (l'.map key).Nodup := by
  induction names generalizing n l with
  | nil =>
    cases h
    exact hnodup
  | cons w names ih =>
    rw [List.zipIdx_cons, List.foldlM_cons] at h
    obtain ⟨l₁, hstep, h⟩ := bind_eq_ok.mp h
    obtain ⟨-, -, -, -, -, -, -, -, hkept⟩ := step_eq_ok hk hstep
    exact ih h (hkept hnodup)

theorem entry_unnamed (hk : Keyed key blank update) {names : List ν} {n : Nat}
    (h : (names.zipIdx n).foldlM (step ident (ensure key blank) update) l = .ok l') (hnot : ∀ v ∈ names, ident v ≠ .ok k) :
    entry key k l' = entry key k l := by
  induction names generalizing n l with
  | nil =>
    cases h
    rfl
  | cons w names ih =>
    rw [List.zipIdx_cons, List.foldlM_cons] at h
    obtain ⟨l₁, hstep, h⟩ := bind_eq_ok.mp h
    obtain ⟨k₁, -, -, hident, -, -, -, hothers, -⟩ := step_eq_ok hk hstep
    have hne : k ≠ k₁ := by
      rintro rfl
      exact hnot w List.mem_cons_self hident
    rw [ih h fun v hv => hnot v (List.mem_cons_of_mem w hv), hothers k hne]

theorem entry_named (hk : Keyed key blank update) {names : List ν} {n i : Nat} {v : ν}
    (h : (names.zipIdx n).foldlM (step ident (ensure key blank) update) l = .ok l')
    (hdistinct : names.Pairwise fun v w => ident v ≠ ident w) (hv : names[i]? = some v) (hident : ident v = .ok k) :
    ∃ a b, base key blank k l = .ok a ∧ update (n + i) a = .ok b ∧ entry key k l' = some b := by
  induction names generalizing n l i with
  | nil => cases hv
  | cons w names ih =>
    rw [List.zipIdx_cons, List.foldlM_cons] at h
    obtain ⟨l₁, hstep, hrest⟩ := bind_eq_ok.mp h
    obtain ⟨k₁, a, b, hk₁, hbase, hupdate, hentry, hothers, -⟩ := step_eq_ok hk hstep
    rw [List.pairwise_cons] at hdistinct
    cases i with
    | zero =>
      cases hv
      rw [hident] at hk₁
      cases hk₁
      -- no later name has this key
      have hlater : entry key k l' = entry key k l₁ :=
        entry_unnamed hk hrest fun u hu heq => hdistinct.1 u hu (hident.trans heq.symm)
      exact ⟨a, b, hbase, hupdate, hlater.trans hentry⟩
    | succ i =>
      have hne : k ≠ k₁ := by
        rintro rfl
        exact hdistinct.1 v (List.mem_of_getElem? hv) (hk₁.trans hident.symm)
      obtain ⟨a', b', hbase', hupdate', hentry'⟩ := ih hrest hdistinct.2 hv
      refine ⟨a', b', ?_, by rwa [Nat.add_right_comm] at hupdate', hentry'⟩
      rwa [base_congr (hothers k hne)] at hbase'

theorem exists_step {v : ν} {i : Nat} (hident : ident v = .ok k) (hblank : ∃ a, blank k = .ok a) (hupdate : ∀ a, ∃ b, update i a = .ok b) :
    ∃ l', step ident (ensure key blank) update l (v, i) = .ok l' := by
  obtain ⟨⟨before, a, after⟩, hplace⟩ : ∃ z, ensure key blank k l = .ok z := by
    rw [ensure]
    split
    · exact ⟨_, rfl⟩
    · obtain ⟨a, ha⟩ := hblank
      exact ⟨_, by rw [ha]; rfl⟩
  obtain ⟨b, hb⟩ := hupdate a
  exact ⟨before ++ b :: after, bind_eq_ok.mpr ⟨k, hident, bind_eq_ok.mpr ⟨_, hplace, bind_eq_ok.mpr ⟨b, hb, rfl⟩⟩⟩⟩

/-- Names of entries that can be made, and updates that do not fail, give a list. -/
theorem exists_overlay {names : List ν} (hident : ∀ v ∈ names, ∃ k, ident v = .ok k ∧ ∃ a, blank k = .ok a)
    (hupdate : ∀ i a, ∃ b, update i a = .ok b) (n : Nat) (l : List α) :
    ∃ l', (names.zipIdx n).foldlM (step ident (ensure key blank) update) l = .ok l' := by
  induction names generalizing n l with
  | nil => exact ⟨l, rfl⟩
  | cons v names ih =>
    obtain ⟨k, hk, hblank⟩ := hident v List.mem_cons_self
    obtain ⟨l₁, hstep⟩ : ∃ l₁, step ident (ensure key blank) update l (v, n) = .ok l₁ := exists_step hk hblank (hupdate n)
    obtain ⟨l', hrest⟩ := ih (fun w hw => hident w (List.mem_cons_of_mem v hw)) (n + 1) l₁
    exact ⟨l', by rw [List.zipIdx_cons, List.foldlM_cons]; exact bind_eq_ok.mpr ⟨l₁, hstep, hrest⟩⟩

theorem overlay_fixed {names : List ν} {n : Nat}
    (h : ∀ i v, names[i]? = some v → ∃ k a, ident v = .ok k ∧ entry key k l = some a ∧ update (n + i) a = .ok a) :
    (names.zipIdx n).foldlM (step ident (ensure key blank) update) l = .ok l := by
  induction names generalizing n with
  | nil => rfl
  | cons w names ih =>
    obtain ⟨k, a, hident, hentry, hupdate⟩ := h 0 w rfl
    rw [Nat.add_zero] at hupdate
    rw [List.zipIdx_cons, List.foldlM_cons, step_fixed hident hentry hupdate]
    refine ih fun i v hv => ?_
    obtain ⟨k', a', hident', hentry', hupdate'⟩ := h (i + 1) v hv
    exact ⟨k', a', hident', hentry', by rwa [Nat.add_right_comm]⟩

/-- An overlay whose updates keep what they have made keeps its own result. -/
theorem overlay_idempotent (hk : Keyed key blank update) (hagain : ∀ {i a b}, update i a = .ok b → update i b = .ok b)
    {names : List ν} (h : overlay ident (ensure key blank) update names l = .ok l')
    (hdistinct : names.Pairwise fun v w => ident v ≠ ident w) : overlay ident (ensure key blank) update names l' = .ok l' := by
  refine overlay_fixed fun i v hv => ?_
  obtain ⟨k, hident⟩ := ident_of_overlay hk h v (List.mem_of_getElem? hv)
  obtain ⟨a, b, -, hupdate, hentry⟩ := entry_named hk h hdistinct hv hident
  exact ⟨k, b, hident, hentry, hagain hupdate⟩

end Lib.Overlay
