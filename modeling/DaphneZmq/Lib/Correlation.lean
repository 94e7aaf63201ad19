import Mathlib.Data.List.Nodup
import Mathlib.Data.Set.Insert

/-! # Requests and replies with ids

A client sends one request after the other, each with an id, and waits for the reply with the id of the last one; it can
give up. The network loses, delays, doubles and reorders: what has been sent can come in at any time. The history has the
newest event first.

If no id is used twice, a reply that the client accepts answers the request that it has sent last, and has been made
since (`Reachable.sound`). -/

namespace Lib.Correlation

inductive Event (Id Req Resp : Type) where
  | sent (id : Id) (req : Req)
  | served (id : Id) (req : Req) (resp : Resp)
  | accepted (id : Id) (resp : Resp)

structure State (Id Req Resp : Type) where
  pending : Option Id
  requests : Set (Id × Req)
  replies : Set (Id × Resp)
  history : List (Event Id Req Resp)

variable {Id Req Resp : Type}

def State.start : State Id Req Resp := ⟨none, ∅, ∅, []⟩

inductive Step : State Id Req Resp → State Id Req Resp → Prop where
  | send (s : State Id Req Resp) (id : Id) (req : Req) :
      Step s ⟨some id, insert (id, req) s.requests, s.replies, .sent id req :: s.history⟩
  | serve {s : State Id Req Resp} {id : Id} {req : Req} (h : (id, req) ∈ s.requests) (resp : Resp) :
      Step s ⟨s.pending, s.requests, insert (id, resp) s.replies, .served id req resp :: s.history⟩
  | accept {s : State Id Req Resp} {id : Id} {resp : Resp} (hpending : s.pending = some id) (h : (id, resp) ∈ s.replies) :
      Step s ⟨none, s.requests, s.replies, .accepted id resp :: s.history⟩
  | abandon (s : State Id Req Resp) : Step s ⟨none, s.requests, s.replies, s.history⟩

inductive Reachable : State Id Req Resp → Prop where
  | start : Reachable .start
  | step {s t : State Id Req Resp} (h : Reachable s) (hstep : Step s t) : Reachable t

/-- The ids of the requests of a history. -/
def sentIds (history : List (Event Id Req Resp)) : List Id :=
  history.filterMap fun
    | .sent id _ => some id
    | _ => none

def Event.Served : Event Id Req Resp → Prop
  | .served .. => True
  | _ => False

/-- After this history, a reply answers the request that has been sent last. -/
def Answers (older : List (Event Id Req Resp)) (id : Id) (resp : Resp) : Prop :=
  ∃ mid req before, older = mid ++ .sent id req :: before ∧ (∀ e ∈ mid, e.Served) ∧ .served id req resp ∈ mid

/-- Every reply that is accepted answers the request that has been sent last before. -/
def Sound (history : List (Event Id Req Resp)) : Prop :=
  ∀ newer id resp older, history = newer ++ .accepted id resp :: older → Answers older id resp

theorem Sound.nil : Sound ([] : List (Event Id Req Resp)) := by
  intro newer id resp older h
  simp at h

theorem Sound.cons {e : Event Id Req Resp} {history : List (Event Id Req Resp)} (h : Sound history)
    (he : ∀ id resp, e = .accepted id resp → Answers history id resp) : Sound (e :: history) := by
  intro newer id resp older heq
  rcases List.cons_eq_append_iff.mp heq with ⟨-, hcons⟩ | ⟨newer', -, hrest⟩
  · obtain ⟨rfl, rfl⟩ := List.cons.inj hcons
    exact he id resp rfl
  · exact h newer' id resp older hrest

/-! ### The invariant -/

structure Inv (s : State Id Req Resp) : Prop where
  requests : ∀ id req, (id, req) ∈ s.requests → .sent id req ∈ s.history
  replies : ∀ id resp, (id, resp) ∈ s.replies →
    ∃ req newer older, s.history = newer ++ .served id req resp :: older ∧ .sent id req ∈ older
  pending : ∀ id, s.pending = some id →
    ∃ mid req before, s.history = mid ++ .sent id req :: before ∧ ∀ e ∈ mid, e.Served
  sound : (sentIds s.history).Nodup → Sound s.history

theorem mem_sentIds {history : List (Event Id Req Resp)} {id : Id} {req : Req} (h : .sent id req ∈ history) :
    id ∈ sentIds history := List.mem_filterMap.mpr ⟨_, h, rfl⟩

theorem sentIds_append (h h' : List (Event Id Req Resp)) : sentIds (h ++ h') = sentIds h ++ sentIds h' := List.filterMap_append

/-- A reply with the id of the last request has been made since, where no id is used twice. -/
theorem answers_of_split {mid before newer older : List (Event Id Req Resp)} {id : Id} {req req' : Req} {resp : Resp}
    (heq : mid ++ .sent id req :: before = newer ++ .served id req' resp :: older) (hmid : ∀ e ∈ mid, e.Served)
    (hsent : .sent id req' ∈ older) (hnodup : (sentIds (mid ++ .sent id req :: before)).Nodup) :
    .served id req resp ∈ mid := by
  have hbefore : id ∉ sentIds before := by
    rw [sentIds_append] at hnodup
    exact (List.nodup_cons.mp (List.nodup_append.mp hnodup).2.1).1
  rcases List.append_eq_append_iff.mp heq with ⟨rest, rfl, hrest⟩ | ⟨rest, rfl, hrest⟩
  · -- it would have been made before the request
    rcases List.cons_eq_append_iff.mp hrest with ⟨-, h⟩ | ⟨rest', -, h⟩
    · cases h
    · exact absurd (mem_sentIds (h ▸ List.mem_append_right _ (List.mem_cons_of_mem _ hsent))) hbefore
  · rcases List.cons_eq_append_iff.mp hrest with ⟨-, h⟩ | ⟨rest', rfl, h⟩
    · cases h
    · have hreq : req' = req := by
        rw [h] at hsent
        rcases List.mem_append.mp hsent with hserved | hsent
        · exact (hmid _ (List.mem_append_right _ (List.mem_cons_of_mem _ hserved))).elim
        rcases List.mem_cons.mp hsent with heq | hsent
        · cases heq
          rfl
        · exact absurd (mem_sentIds hsent) hbefore
      rw [hreq]
      exact List.mem_append_right _ (List.mem_cons_self ..)

theorem Inv.start : Inv (.start : State Id Req Resp) where
  requests _ _ h := h.elim
  replies _ _ h := h.elim
  pending _ h := by cases h
  sound _ := .nil

theorem Inv.step {s t : State Id Req Resp} (h : Inv s) (hstep : Step s t) : Inv t := by
  cases hstep with
  | send id req =>
    refine ⟨fun id' req' hmem => ?_, fun id' resp hmem => ?_, fun id' hpending => ?_, fun hnodup => ?_⟩
    · rcases Set.mem_insert_iff.mp hmem with heq | hmem
      · cases heq
        exact List.mem_cons_self ..
      · exact List.mem_cons_of_mem _ (h.requests id' req' hmem)
    · obtain ⟨req', newer, older, heq, hsent⟩ := h.replies id' resp hmem
      exact ⟨req', .sent id req :: newer, older, by rw [heq]; rfl, hsent⟩
    · cases hpending
      exact ⟨[], req, s.history, rfl, fun e he => nomatch he⟩
    · refine (h.sound (List.nodup_cons.mp hnodup).2).cons fun _ _ heq => ?_
      cases heq
  | @serve id req hmem resp =>
    refine ⟨fun id' req' hmem' => List.mem_cons_of_mem _ (h.requests id' req' hmem'), fun id' resp' hmem' => ?_, fun id' hpending => ?_,
      fun hnodup => ?_⟩
    · rcases Set.mem_insert_iff.mp hmem' with heq | hmem'
      · cases heq
        exact ⟨req, [], s.history, rfl, h.requests id req hmem⟩
      · obtain ⟨req', newer, older, heq, hsent⟩ := h.replies id' resp' hmem'
        exact ⟨req', .served id req resp :: newer, older, by rw [heq]; rfl, hsent⟩
    · obtain ⟨mid, req', before, heq, hmid⟩ := h.pending id' hpending
      refine ⟨.served id req resp :: mid, req', before, by rw [heq]; rfl, fun e he => ?_⟩
      rcases List.mem_cons.mp he with rfl | he
      · trivial
      · exact hmid e he
    · refine (h.sound hnodup).cons fun _ _ heq => ?_
      cases heq
  | @accept id resp hpending hmem =>
    refine ⟨fun id' req' hmem' => List.mem_cons_of_mem _ (h.requests id' req' hmem'), fun id' resp' hmem' => ?_, fun id' hpending' => ?_,
      fun hnodup => ?_⟩
    · obtain ⟨req', newer, older, heq, hsent⟩ := h.replies id' resp' hmem'
      exact ⟨req', .accepted id resp :: newer, older, by rw [heq]; rfl, hsent⟩
    · cases hpending'
    · refine (h.sound hnodup).cons fun id' resp' heq => ?_
      cases heq
      obtain ⟨mid, req, before, hsplit, hmid⟩ := h.pending id hpending
      obtain ⟨req', newer, older, hserved, hsent⟩ := h.replies id resp hmem
      have hnodup' : (sentIds s.history).Nodup := hnodup
      rw [hsplit] at hserved hnodup'
      exact ⟨mid, req, before, hsplit, hmid, answers_of_split hserved hmid hsent hnodup'⟩
  | abandon => exact { h with pending := fun _ hpending => (nomatch hpending) }

theorem Reachable.inv {s : State Id Req Resp} (h : Reachable s) : Inv s := by
  induction h with
  | start => exact .start
  | step _ hstep ih => exact ih.step hstep

/-- A client that uses no id twice accepts only what answers the request that it has sent last. -/
theorem Reachable.sound {s : State Id Req Resp} (h : Reachable s) (hnodup : (sentIds s.history).Nodup) : Sound s.history :=
  h.inv.sound hnodup

end Lib.Correlation
