import DaphneZmq.Lib.Device

/-! # What programs leave alone

`Apart` says that some addresses are not written and that a view of the driver state does not change. `Maintains`
says that a property survives a program, also when the program throws, unless what it throws stops the run. -/

namespace Lib.Device

/-! ### Parts of the driver state -/

section Zoom
variable {A W D E α β V : Type}

def State.withDriver (s : State A W D) (e : E) : State A W E := ⟨s.cells, s.reads, s.accesses, s.writes, e⟩

/-- The program, on a part of the driver state. -/
def zoom (get : D → E) (set : E → D → D) (m : Prog A W E α) : Prog A W D α := fun s =>
  match m (s.withDriver (get s.driver)) with
  | .ok a t => .ok a (t.withDriver (set t.driver s.driver))
  | .error e t => .error e (t.withDriver (set t.driver s.driver))

variable {get : D → E} {set : E → D → D}

theorem wp_zoom {m : Prog A W E α} {Q : α → State A W D → Prop} {X : String → State A W D → Prop} {s : State A W D} :
    wp (zoom get set m) Q X s ↔ wp m (fun a t => Q a (t.withDriver (set t.driver s.driver)))
      (fun e t => X e (t.withDriver (set t.driver s.driver))) (s.withDriver (get s.driver)) := by
  unfold wp zoom
  cases m (s.withDriver (get s.driver)) <;> rfl

end Zoom

section Rules
variable {A W D α β : Type} {m : Prog A W D α} {Q : α → State A W D → Prop} {X : String → State A W D → Prop}
  {s : State A W D}

theorem wp_attempt {Q : Except String α → State A W D → Prop} :
    wp (attempt m) Q X s ↔ wp m (fun a t => Q (.ok a) t) (fun e t => Q (.error e) t) s := by
  unfold wp attempt
  cases m s <;> rfl

theorem wp_getDriver {Q : D → State A W D → Prop} : wp getDriver Q X s ↔ Q s.driver s := Iff.rfl

theorem wp_true : wp m (fun _ _ => True) (fun _ _ => True) s := by
  unfold wp
  cases m s <;> trivial

/-- A loop that returns has returned from each of its programs. -/
theorem wp_forM_all {ι : Type} {f : ι → Prog A W D Unit} {p : ι → Prop}
    (h : ∀ x s, wp (f x) (fun _ _ => p x) (fun _ _ => True) s) : ∀ (xs : List ι) (s : State A W D),
    wp (xs.forM f) (fun _ _ => ∀ x ∈ xs, p x) (fun _ _ => True) s
  | [], _ => nofun
  | x :: xs, s => by
    refine wp_bind.mpr (wp_mono (h x s) (fun _ t hx => ?_) fun _ _ h => h)
    refine wp_mono (wp_forM_all h xs t) (fun _ _ hxs => ?_) fun _ _ h => h
    exact fun y hy => (List.mem_cons.mp hy).elim (fun hyx => hyx ▸ hx) (hxs y)

theorem mapM_ok {ι : Type} {f : ι → Prog A W D α} {g : ι → α} : ∀ {xs : List ι}, (∀ x ∈ xs, f x s = .ok (g x) s) →
    xs.mapM f s = .ok (xs.map g) s
  | [], _ => rfl
  | x :: xs, h => by
    have htail : xs.mapM f s = .ok (xs.map g) s := mapM_ok fun y hy => h y (List.mem_cons_of_mem x hy)
    rw [List.mapM_cons, bind_ok (h x (List.mem_cons_self ..)), bind_ok htail, List.map_cons]
    rfl

theorem forM_map {ι κ : Type} (g : ι → κ) (f : κ → Prog A W D Unit) : ∀ xs : List ι, (xs.map g).forM f = xs.forM fun x => f (g x)
  | [] => rfl
  | x :: xs => by
    show (f (g x) >>= fun _ => (xs.map g).forM f) = (f (g x) >>= fun _ => xs.forM fun x => f (g x))
    rw [forM_map g f xs]

theorem forM_congr {ι : Type} {f g : ι → Prog A W D Unit} : ∀ {xs : List ι}, (∀ x ∈ xs, f x = g x) → xs.forM f = xs.forM g
  | [], _ => rfl
  | x :: xs, h => by
    show (f x >>= fun _ => xs.forM f) = (g x >>= fun _ => xs.forM g)
    rw [h x (List.mem_cons_self ..), forM_congr fun y hy => h y (List.mem_cons_of_mem _ hy)]

/-- A loop over lists and a loop within each. -/
theorem forM_flatten {ι : Type} (f : ι → Prog A W D Unit) : ∀ xss : List (List ι),
    xss.forM (fun xs => xs.forM f) = xss.flatten.forM f
  | [] => rfl
  | xs :: xss => by
    show (xs.forM f >>= fun _ => xss.forM fun xs => xs.forM f) = (xs ++ xss.flatten).forM f
    rw [forM_flatten f xss]
    exact List.forM_append.symm

theorem forM_throw {ι : Type} {f : ι → Prog A W D Unit} {x : ι} {xs : List ι} {e : String} (h : f x = throw e) :
    (x :: xs).forM f = throw e := by
  show (f x >>= fun _ => xs.forM f) = throw e
  rw [h]
  rfl

end Rules

/-! ### Frames -/

section Apart
variable {A W D V α β : Type} {mine : A → Prop} {view : D → V}

/-- Nothing at the addresses `mine` is written, and the view of the driver state stays. -/
structure Apart (mine : A → Prop) (view : D → V) (s t : State A W D) : Prop where
  cells : ∀ a, mine a → t.cells a = s.cells a
  view_eq : view t.driver = view s.driver
  writes : ∃ ws, t.writes = s.writes ++ ws ∧ ∀ w ∈ ws, ¬mine w.address

theorem Apart.trans {s t u : State A W D} (h : Apart mine view s t) (h' : Apart mine view t u) : Apart mine view s u := by
  obtain ⟨ws, hws, hnot⟩ := h.writes
  obtain ⟨ws', hws', hnot'⟩ := h'.writes
  refine ⟨fun a ha => (h'.cells a ha).trans (h.cells a ha), h'.view_eq.trans h.view_eq, ws ++ ws', ?_, fun w hw => ?_⟩
  · rw [hws', hws, List.append_assoc]
  · rcases List.mem_append.mp hw with hw | hw
    · exact hnot w hw
    · exact hnot' w hw

theorem Apart.of_quiet {s t : State A W D} (h : Quiet s t) : Apart mine view s t :=
  ⟨fun a _ => congrFun h.cells a, congrArg view h.driver, [], by rw [h.writes, List.append_nil], by simp⟩

def Effect.apart (mine : A → Prop) (view : D → V) : Effect A W D where
  Rel := Apart mine view
  refl _ := Apart.of_quiet ⟨rfl, rfl, rfl⟩
  trans := Apart.trans
  tick _ := Apart.of_quiet ⟨rfl, rfl, rfl⟩

variable {m : Prog A W D α} {env : Env A W}

theorem Does.coarsen {G G' : Effect A W D} (h : Does G m) (hG : ∀ s t, G.Rel s t → G'.Rel s t) : Does G' m :=
  ⟨fun s => wp_mono (h.run s) (fun _ t ht => hG s t ht) fun _ t ht => hG s t ht⟩

theorem does_apart_of_quiet (h : Does .quiet m) : Does (.apart mine view) m := h.coarsen fun _ _ ht => Apart.of_quiet ht

theorem does_attempt {G : Effect A W D} (h : Does G m) : Does G (attempt m) := ⟨fun s => wp_attempt.mpr (h.run s)⟩

theorem does_rethrow {G : Effect A W D} {f : String → String} (h : Does G m) : Does G (rethrow f m) := by
  refine ⟨fun s => ?_⟩
  have hrun := h.run s
  unfold wp rethrow at *
  cases hm : m s <;> rw [hm] at hrun <;> exact hrun

theorem does_getDriver {G : Effect A W D} : Does G (getDriver : Prog A W D D) := ⟨G.refl⟩

theorem does_forM {ι : Type} {G : Effect A W D} {f : ι → Prog A W D Unit} : ∀ {xs : List ι}, (∀ x ∈ xs, Does G (f x)) →
    Does G (xs.forM f)
  | [], _ => does_pure ()
  | x :: _, h => (h x (List.mem_cons_self ..)).bind fun _ => does_forM fun y hy => h y (List.mem_cons_of_mem x hy)

/-- A loop that runs to the first of its programs that cannot return. -/
theorem does_forM_front {ι : Type} {G : Effect A W D} {f : ι → Prog A W D Unit} (stops : ι → Bool) {xs : List ι}
    (hfront : ∀ x ∈ xs.takeWhile (!stops ·), Does G (f x))
    (hstop : ∀ x ∈ xs.find? stops, Does G (f x) ∧ ∀ s, wp (f x) (fun _ _ => False) (fun _ _ => True) s) : Does G (xs.forM f) := by
  induction xs with
  | nil => exact does_pure ()
  | cons x xs ih =>
    cases hx : stops x with
    | true =>
      obtain ⟨hdoes, hnever⟩ := hstop x (by simp [hx])
      exact ⟨fun s => wp_bind.mpr (wp_mono (wp_and (hdoes.run s) (hnever s)) (fun _ _ h => h.2.elim) fun _ _ h => h.1)⟩
    | false =>
      rw [List.takeWhile_cons_of_pos (by simp [hx])] at hfront
      rw [List.find?_cons_of_neg (by simp [hx])] at hstop
      exact (hfront x (List.mem_cons_self ..)).bind fun _ => ih (fun y hy => hfront y (List.mem_cons_of_mem x hy)) hstop

theorem does_apart_modifyDriver {f : D → D} (h : ∀ d, view (f d) = view d) :
    Does (.apart mine view) (modifyDriver f : Prog A W D Unit) :=
  does_modifyDriver fun s => ⟨fun _ _ => rfl, h s.driver, [], (List.append_nil _).symm, by simp⟩

theorem does_apart_zoom {E : Type} {get : D → E} {set : E → D → D} {m : Prog A W E α} (hset : ∀ d, set (get d) d = d)
    (h : ∀ d, Does (.apart mine fun e => view (set e d)) m) : Does (.apart mine view) (zoom get set m) := by
  refine ⟨fun s => wp_zoom.mpr ?_⟩
  have hapart : ∀ t : State A W E, Apart mine (fun e => view (set e s.driver)) (s.withDriver (get s.driver)) t →
      Apart mine view s (t.withDriver (set t.driver s.driver)) := fun t ht => by
    refine ⟨ht.cells, ht.view_eq.trans ?_, ht.writes⟩
    show view (set (get s.driver) s.driver) = view s.driver
    rw [hset]
  exact wp_mono ((h s.driver).run _) (fun _ t ht => hapart t ht) fun _ t ht => hapart t ht

variable [DecidableEq A]

theorem apart_afterWrite {s : State A W D} {a : A} {w : W} (ha : ¬mine a) : Apart mine view s (s.afterWrite a w) := by
  refine ⟨fun c hc => Function.update_of_ne ?_ _ _, rfl, [_], rfl, fun w hw => ?_⟩
  · rintro rfl
    exact ha hc
  · rw [List.mem_singleton.mp hw]
    exact ha

theorem does_apart_read (a : A) : Does (.apart mine view) (read env a : Prog A W D W) := does_apart_of_quiet (does_quiet_read a)

theorem does_touches_read {written sampled : A → Prop} {a : A} (ha : sampled a) :
    Does (.touches written sampled) (read env a : Prog A W D W) := by
  refine ⟨fun s => ?_⟩
  unfold wp read
  cases env.faults s.accesses with
  | some e => exact (Effect.touches written sampled).tick s
  | none =>
    cases env.driven a with
    | none => exact (Effect.touches written sampled).tick s
    | some values => exact touched_afterRead ha

theorem does_touches_write {written sampled : A → Prop} {a : A} (ha : written a) (w : W) :
    Does (.touches written sampled) (write env a w : Prog A W D Unit) := by
  refine ⟨fun s => wp_write.mpr ?_⟩
  cases env.faults s.accesses with
  | some e => exact (Effect.touches written sampled).tick s
  | none => exact touched_afterWrite ha w

theorem does_apart_write {a : A} (ha : ¬mine a) (w : W) : Does (.apart mine view) (write env a w : Prog A W D Unit) := by
  refine ⟨fun s => wp_write.mpr ?_⟩
  cases env.faults s.accesses with
  | some e => exact (Effect.apart mine view).tick s
  | none => exact apart_afterWrite ha

end Apart

/-! ### Programs that return -/

section Ends
variable {A W D α β : Type}

/-- If the program returns, it does so as `R` says. -/
structure Ends (m : Prog A W D α) (R : State A W D → Prop) (s : State A W D) : Prop where
  run : wp m (fun _ t => R t) (fun _ _ => True) s

namespace Ends
variable {m : Prog A W D α} {R R' : State A W D → Prop} {s t : State A W D}

theorem ok (h : Ends m R s) {a : α} (hm : m s = .ok a t) : R t := wp_ok h.run hm

theorem always (m : Prog A W D α) (s : State A W D) : Ends m (fun _ => True) s := ⟨wp_true⟩

theorem pure {a : α} (h : R s) : Ends (Pure.pure a : Prog A W D α) R s := ⟨h⟩

theorem mono (h : Ends m R s) (hR : ∀ t, R t → R' t) : Ends m R' s := ⟨wp_mono h.run (fun _ t ht => hR t ht) fun _ _ h => h⟩

theorem bind {f : α → Prog A W D β} (h : Ends m R s) (h' : ∀ a t, R t → Ends (f a) R' t) : Ends (m >>= f) R' s :=
  ⟨wp_bind.mpr (wp_mono h.run (fun a t ht => (h' a t ht).run) fun _ _ h => h)⟩

theorem of_does {G : Effect A W D} (h : Does G m) (hG : ∀ t, G.Rel s t → R t) : Ends m R s :=
  ⟨wp_mono (h.run s) (fun _ t ht => hG t ht) fun _ _ _ => trivial⟩

theorem of_returns {env : Env A W} {Q : α → State A W D → Prop} (h : Returns env m Q s) (hQ : ∀ a t, Q a t → R t) : Ends m R s :=
  ⟨wp_mono h.run (fun a t ht => hQ a t ht.2) fun _ _ _ => trivial⟩

/-- The rounds of a loop over `0`, …, `n - 1`; `J` is its invariant. -/
theorem forM_range {f : Nat → Prog A W D Unit} (J : Nat → State A W D → Prop) (h0 : J 0 s) : ∀ {n : Nat},
    (∀ k < n, ∀ t, J k t → Ends (f k) (J (k + 1)) t) → Ends ((List.range n).forM f) (J n) s
  | 0, _ => ⟨h0⟩
  | n + 1, h => by
    rw [List.range_succ, List.forM_eq_forM, List.forM_append]
    refine (forM_range J h0 fun k hk => h k (by omega)).bind fun _ t ht => ?_
    exact (h n (Nat.lt_succ_self n) t ht).bind fun _ u hu => pure hu

end Ends
end Ends

/-! ### Programs that go through a list -/

section Follows
variable {X A W D α β : Type}

/-- What items do to the state, one after the other. -/
structure Course (X A W D : Type) where
  Rel : List X → State A W D → State A W D → Prop
  nil : ∀ s, Rel [] s s
  append : ∀ {l l' s t u}, Rel l s t → Rel l' t u → Rel (l ++ l') s u

/-- The program goes through a list of items. If it throws, it has been through the first part of them, unless what it throws stops
the run; and it throws nothing else if it refuses nothing. -/
structure Follows (G : Course X A W D) (stop : String → Prop) (refuses : Prop) (m : Prog A W D α) (l : List X) (s : State A W D) :
    Prop where
  run : wp m (fun _ t => G.Rel l s t) (fun e t => stop e ∨ refuses ∧ ∃ made, made <+: l ∧ G.Rel made s t) s

variable {G : Course X A W D} {stop : String → Prop} {refuses : Prop} {m : Prog A W D α} {l l' : List X} {s : State A W D}

theorem follows_pure (a : α) (s : State A W D) : Follows G stop refuses (pure a) [] s := ⟨G.nil s⟩

theorem follows_throw (e : String) (l : List X) (s : State A W D) : Follows G stop True (throw e : Prog A W D α) l s :=
  ⟨Or.inr ⟨trivial, [], List.nil_prefix, G.nil s⟩⟩

theorem Follows.bind {f : α → Prog A W D β} (h : Follows G stop refuses m l s) (h' : ∀ a t, Follows G stop refuses (f a) l' t) :
    Follows G stop refuses (m >>= f) (l ++ l') s := by
  refine ⟨wp_bind.mpr (wp_mono h.run (fun a t ht => ?_) fun e t he => ?_)⟩
  · refine wp_mono (h' a t).run (fun _ u hu => G.append ht hu) fun e u he => he.imp_right ?_
    rintro ⟨hrefuses, made, hmade, hu⟩
    exact ⟨hrefuses, l ++ made, (List.prefix_append_right_inj l).mpr hmade, G.append ht hu⟩
  · refine he.imp_right ?_
    rintro ⟨hrefuses, made, hmade, ht⟩
    exact ⟨hrefuses, made, hmade.trans (List.prefix_append l l'), ht⟩

theorem follows_forM {ι : Type} {f : ι → Prog A W D Unit} {g : ι → List X} : ∀ {xs : List ι},
    (∀ x ∈ xs, ∀ s, Follows G stop refuses (f x) (g x) s) → ∀ s, Follows G stop refuses (xs.forM f) (xs.flatMap g) s
  | [], _, s => follows_pure () s
  | x :: xs, h, s => by
    rw [List.flatMap_cons]
    exact (h x (List.mem_cons_self ..) s).bind fun _ => follows_forM fun y hy => h y (List.mem_cons_of_mem x hy)

end Follows

/-! ### Invariants -/

section Maintains
variable {A W D α β : Type} {stop : String → Prop} {P : State A W D → Prop} {m : Prog A W D α}

/-- The property survives the program, unless what the program throws stops the run. -/
structure Maintains (stop : String → Prop) (P : State A W D → Prop) (m : Prog A W D α) : Prop where
  run : ∀ s, P s → wp m (fun _ t => P t) (fun e t => ¬stop e → P t) s

theorem maintains_pure (a : α) : Maintains stop P (pure a : Prog A W D α) := ⟨fun _ h => h⟩

theorem maintains_throw (e : String) : Maintains stop P (throw e : Prog A W D α) := ⟨fun _ h _ => h⟩

theorem Maintains.bind {f : α → Prog A W D β} (h : Maintains stop P m) (h' : ∀ a, Maintains stop P (f a)) :
    Maintains stop P (m >>= f) :=
  ⟨fun s hs => wp_bind.mpr (wp_mono (h.run s hs) (fun a t ht => (h' a).run t ht) fun _ _ ht => ht)⟩

/-- What a program leaves alone survives it. -/
theorem Maintains.of_does {G : Effect A W D} (h : Does G m) (hG : ∀ s t, G.Rel s t → P s → P t) : Maintains stop P m :=
  ⟨fun s hs => wp_mono (h.run s) (fun _ t ht => hG s t ht hs) fun _ t ht _ => hG s t ht hs⟩

theorem maintains_forM {ι : Type} {f : ι → Prog A W D Unit} : ∀ {xs : List ι}, (∀ x ∈ xs, Maintains stop P (f x)) →
    Maintains stop P (xs.forM f)
  | [], _ => maintains_pure ()
  | x :: _, h => (h x (List.mem_cons_self ..)).bind fun _ => maintains_forM fun y hy => h y (List.mem_cons_of_mem x hy)

end Maintains

/-! ### Waits with a timeout -/

section Poll
variable {A W D : Type} {busy : Prog A W D Bool} {timeout : String}

/-- The polls of a wait, the first one not counted. -/
def pollWhile (busy : Prog A W D Bool) (timeout : String) : Nat → Prog A W D Unit
  | 0 => do
    let stillBusy ← busy
    if stillBusy then throw timeout else return ()
  | polls + 1 => do
    let stillBusy ← busy
    if stillBusy then pollWhile busy timeout polls else return ()

theorem does_pollWhile {G : Effect A W D} (hbusy : Does G busy) : ∀ polls, Does G (pollWhile busy timeout polls)
  | 0 => hbusy.bind fun stillBusy => by
    cases stillBusy
    · exact does_pure ()
    · exact does_throw timeout
  | polls + 1 => hbusy.bind fun stillBusy => by
    cases stillBusy
    · exact does_pure ()
    · exact does_pollWhile hbusy polls

/-- A wait writes nothing, and it throws nothing but its timeout. -/
theorem wp_pollWhile (hbusy : ∀ s, wp busy (fun _ t => Quiet s t) (fun _ _ => False) s) : ∀ polls s,
    wp (pollWhile busy timeout polls) (fun _ t => Quiet s t) (fun e t => e = timeout ∧ Quiet s t) s
  | 0, s => by
    refine wp_bind.mpr (wp_mono (hbusy s) (fun stillBusy t ht => ?_) fun _ _ h => h.elim)
    cases stillBusy
    · exact ht
    · exact ⟨rfl, ht⟩
  | polls + 1, s => by
    refine wp_bind.mpr (wp_mono (hbusy s) (fun stillBusy t ht => ?_) fun _ _ h => h.elim)
    cases stillBusy
    · exact ht
    · exact wp_mono (wp_pollWhile hbusy polls t) (fun _ _ hu => Effect.quiet.trans ht hu)
        fun _ _ hu => ⟨hu.1, Effect.quiet.trans ht hu.2⟩

/-- A wait on a register that the hardware drives times out if every poll finds it busy. -/
theorem wp_pollWhile_trace [DecidableEq A] {a : A} {values : Nat → Bool}
    (hbusy : ∀ s : State A W D, busy s = .ok (values (s.reads a)) (s.afterRead a)) : ∀ polls s,
    wp (pollWhile busy timeout polls) (fun _ _ => ∃ j ≤ polls, values (s.reads a + j) = false)
      (fun _ _ => ∀ j ≤ polls, values (s.reads a + j) = true) s
  | 0, s => by
    refine wp_bind.mpr ?_
    rw [wp, hbusy]
    dsimp only
    cases hvalue : values (s.reads a)
    · exact ⟨0, Nat.le_refl 0, hvalue⟩
    · exact fun j hj => by rwa [Nat.le_zero.mp hj]
  | polls + 1, s => by
    have hreads : (s.afterRead a).reads a = s.reads a + 1 := by rw [State.afterRead_reads, Function.update_self]
    refine wp_bind.mpr ?_
    rw [wp, hbusy]
    dsimp only
    cases hvalue : values (s.reads a)
    · exact ⟨0, Nat.zero_le _, hvalue⟩
    · refine wp_mono (wp_pollWhile_trace hbusy polls (s.afterRead a)) ?_ ?_
      · rintro _ _ ⟨j, hj, hidle⟩
        rw [hreads, Nat.add_assoc, Nat.add_comm 1] at hidle
        exact ⟨j + 1, by omega, hidle⟩
      · rintro _ _ hall (_ | j) hj
        · exact hvalue
        · have := hall j (by omega)
          rwa [hreads, Nat.add_assoc, Nat.add_comm 1] at this

end Poll
end Lib.Device
