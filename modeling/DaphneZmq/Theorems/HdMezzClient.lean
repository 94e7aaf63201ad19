import DaphneZmq.HdMezzClient
import DaphneZmq.Theorems.Router

/-! # Late replies and the client's socket

A call takes the first reply in the queue, so a reply that comes late is taken by a later call. While the queue is empty
between calls each one finds its own reply first; once a call has left a reply behind, none does. -/

namespace DaphneZmq
open Lib.Wire (Bytes)

namespace HdMezzClient

variable {α : Type} {clock : Nat → UInt64} {parse : MessageTypeV2 → Bytes → Option α} {c d : Call} {n : Nat} {queue : List Pending}

/-! ### Replies -/

theorem reply_correlId : (c.reply clock).correlId = c.msgId := rfl

theorem reply_type : (c.reply clock).type = V2.responseType c.reqType := rfl

theorem reply_payload : (c.reply clock).payload = c.answer := rfl

/-- A reply that passes the checks answers the request. -/
theorem msgId_eq_of_returned {resp : α} (hzero : d.msgId ≠ 0) (h : check parse c (d.reply clock) = .returned resp) :
    d.msgId = c.msgId := by
  unfold check at h
  split at h
  · cases h
  · split at h
    · cases h
    · rename_i hcorrel
      rw [reply_correlId, not_and, not_not] at hcorrel
      exact hcorrel hzero

theorem check_own {resp : α} (hpaired : c.respType = V2.responseType c.reqType) (hparse : parse c.respType c.answer = some resp) :
    check parse c (c.reply clock) = .returned resp := by
  rw [check, reply_type, reply_correlId, reply_payload, hparse, if_neg (not_not_intro hpaired.symm), if_neg (fun h => h.2 rfl)]

/-! ### One call -/

theorem v2Rpc_cons_inTime {p : Pending} (h : p.arrives ≤ c.start + c.timeout) :
    v2Rpc parse c (p :: queue) = (⟨some p.call, check parse c p.reply⟩, queue) := by rw [v2Rpc, if_pos h]

theorem v2Rpc_cons_late {p : Pending} (h : ¬p.arrives ≤ c.start + c.timeout) :
    v2Rpc parse c (p :: queue) = (⟨none, .again⟩, p :: queue) := by rw [v2Rpc, if_neg h]

theorem v2Rpc_own (h : c.InTime) : v2Rpc parse c [⟨n, c.arrives, c.reply clock⟩] = (⟨some n, check parse c (c.reply clock)⟩, []) :=
  v2Rpc_cons_inTime h

theorem v2Rpc_late (h : ¬c.InTime) :
    v2Rpc parse c [⟨n, c.arrives, c.reply clock⟩] = (⟨none, .again⟩, [⟨n, c.arrives, c.reply clock⟩]) := v2Rpc_cons_late h

theorem run_cons (calls : List Call) : run clock parse n queue (c :: calls) =
    (v2Rpc parse c (queue ++ [⟨n, c.arrives, c.reply clock⟩])).1 ::
      run clock parse (n + 1) (v2Rpc parse c (queue ++ [⟨n, c.arrives, c.reply clock⟩])).2 calls := rfl

/-! ### Whose reply is taken -/

/-- What is in the queue are replies to calls of the schedule. -/
def Answers (clock : Nat → UInt64) (all : List Call) (queue : List Pending) : Prop :=
  ∀ p ∈ queue, ∃ d, all[p.call]? = some d ∧ p.reply = d.reply clock

theorem v2Rpc_answers (parse : MessageTypeV2 → Bytes → Option α) (c : Call) {all : List Call} (h : Answers clock all queue) :
    Answers clock all (v2Rpc parse c queue).2 ∧
    ∀ k, (v2Rpc parse c queue).1.taken = some k → ∃ d, all[k]? = some d ∧ (v2Rpc parse c queue).1.outcome = check parse c (d.reply clock) := by
  cases queue with
  | nil => exact ⟨h, nofun⟩
  | cons p queue =>
    by_cases htime : p.arrives ≤ c.start + c.timeout
    · rw [v2Rpc_cons_inTime htime]
      refine ⟨fun q hq => h q (List.mem_cons_of_mem _ hq), fun k hk => ?_⟩
      cases hk
      obtain ⟨d, hd, hreply⟩ := h p List.mem_cons_self
      exact ⟨d, hd, by rw [hreply]⟩
    · rw [v2Rpc_cons_late htime]
      exact ⟨h, nofun⟩

theorem taken_of_returned {resp : α} (h : (v2Rpc parse c queue).1.outcome = .returned resp) :
    ∃ k, (v2Rpc parse c queue).1.taken = some k := by
  cases queue with
  | nil => cases h
  | cons p queue =>
    by_cases htime : p.arrives ≤ c.start + c.timeout
    · exact ⟨p.call, by rw [v2Rpc_cons_inTime htime]⟩
    · rw [v2Rpc_cons_late htime] at h
      cases h

/-- In a run whose queue holds replies of the schedule, every end that took a reply looked at the reply of that call. -/
theorem run_answers {all : List Call} (calls : List Call) : ∀ n queue, all.drop n = calls → Answers clock all queue →
    ∀ (i : Nat) (done : Done α), (run clock parse n queue calls)[i]? = some done → ∃ c, calls[i]? = some c ∧
      ∀ resp, done.outcome = .returned resp → ∃ k d, done.taken = some k ∧ all[k]? = some d ∧
        done.outcome = check parse c (d.reply clock) := by
  induction calls with
  | nil =>
    intro n queue _ _ i done h
    cases h
  | cons c calls ih =>
    intro n queue hall hqueue i done h
    have hn : all[n]? = some c := by rw [← List.head?_drop, hall, List.head?_cons]
    have hsent : Answers clock all (queue ++ [⟨n, c.arrives, c.reply clock⟩]) := by
      intro p hp
      rcases List.mem_append.mp hp with hp | hp
      · exact hqueue p hp
      · cases List.mem_singleton.mp hp
        exact ⟨c, hn, rfl⟩
    obtain ⟨hleft, htaken⟩ := v2Rpc_answers parse c hsent
    rw [run_cons] at h
    cases i with
    | zero =>
      rw [List.getElem?_cons_zero, Option.some.injEq] at h
      subst h
      refine ⟨c, rfl, fun resp hresp => ?_⟩
      obtain ⟨k, hk⟩ := taken_of_returned hresp
      obtain ⟨d, hd, hcheck⟩ := htaken k hk
      exact ⟨k, d, hk, hd, hcheck⟩
    | succ i =>
      rw [List.getElem?_cons_succ] at h
      have hdrop : all.drop (n + 1) = calls := by rw [← List.drop_drop, hall, List.drop_one, List.tail_cons]
      exact ih (n + 1) _ hdrop hleft i done h

/-! ### Whether it is one's own -/

/-- The first calls that are in time leave the queue empty, so the next one takes its own reply if that is in time. -/
theorem run_own (clock : Nat → UInt64) (parse : MessageTypeV2 → Bytes → Option α) (calls : List Call) :
    ∀ (n i : Nat) (c : Call), calls[i]? = some c →
    (∀ (j : Nat) (d : Call), j < i → calls[j]? = some d → d.InTime) → c.InTime →
    (run clock parse n [] calls)[i]? = some ⟨some (n + i), check parse c (c.reply clock)⟩ := by
  induction calls with
  | nil =>
    intro n i c h
    cases h
  | cons head calls ih =>
    intro n i c hc hbefore htime
    have hrun (h : head.InTime) : run clock parse n [] (head :: calls) =
        ⟨some n, check parse head (head.reply clock)⟩ :: run clock parse (n + 1) [] calls := by
      rw [run_cons, List.nil_append, v2Rpc_own h]
    cases i with
    | zero =>
      obtain rfl : head = c := by simpa using hc
      rw [hrun htime, List.getElem?_cons_zero, Nat.add_zero]
    | succ i =>
      have hnext := ih (n + 1) i c (by simpa using hc) (fun j d hj hd => hbefore (j + 1) d (by omega) (by simpa using hd)) htime
      rw [hrun (hbefore 0 head (by omega) rfl), List.getElem?_cons_succ, hnext, Nat.add_right_comm, Nat.add_assoc]

/-- Once a reply is left behind, no call takes its own. -/
theorem run_not_own (calls : List Call) : ∀ n queue, queue ≠ [] → (∀ p ∈ queue, p.call < n) →
    ∀ (i : Nat) (done : Done α), (run clock parse n queue calls)[i]? = some done → done.taken ≠ some (n + i) := by
  induction calls with
  | nil =>
    intro n queue _ _ i done h
    cases h
  | cons c calls ih =>
    intro n queue hne hlt i done h
    obtain ⟨p, rest, rfl⟩ := List.exists_cons_of_ne_nil hne
    have hleft : ∀ q ∈ rest ++ [⟨n, c.arrives, c.reply clock⟩], Pending.call q < n + 1 := by
      intro q hq
      rcases List.mem_append.mp hq with hq | hq
      · exact Nat.lt_succ_of_lt (hlt q (List.mem_cons_of_mem _ hq))
      · cases List.mem_singleton.mp hq
        exact Nat.lt_succ_self n
    have hp := hlt p List.mem_cons_self
    rw [run_cons, List.cons_append] at h
    by_cases htime : p.arrives ≤ c.start + c.timeout
    · rw [v2Rpc_cons_inTime htime] at h
      cases i with
      | zero =>
        cases h
        exact fun heq => absurd (Option.some.inj heq) (by omega)
      | succ i =>
        rw [List.getElem?_cons_succ] at h
        have := ih (n + 1) _ (by simp) hleft i done h
        rwa [Nat.add_right_comm, Nat.add_assoc] at this
    · rw [v2Rpc_cons_late htime] at h
      cases i with
      | zero =>
        cases h
        exact nofun
      | succ i =>
        rw [List.getElem?_cons_succ] at h
        have hleft' : ∀ q ∈ p :: (rest ++ [⟨n, c.arrives, c.reply clock⟩]), Pending.call q < n + 1 := by
          intro q hq
          rcases List.mem_cons.mp hq with rfl | hq
          · exact Nat.lt_succ_of_lt hp
          · exact hleft q hq
        have := ih (n + 1) _ (by simp) hleft' i done h
        rwa [Nat.add_right_comm, Nat.add_assoc] at this

/-- After a call whose reply is late, no call takes its own. -/
theorem run_not_own_of_late (calls : List Call) : ∀ (n i j : Nat) (c : Call), i < j → calls[i]? = some c → ¬c.InTime →
    ∀ (done : Done α), (run clock parse n [] calls)[j]? = some done → done.taken ≠ some (n + j) := by
  induction calls with
  | nil =>
    intro n i j c _ h
    cases h
  | cons head calls ih =>
    intro n i j c hij hc hlate done h
    obtain ⟨j, rfl⟩ : ∃ k, j = k + 1 := ⟨j - 1, by omega⟩
    rw [run_cons, List.nil_append, List.getElem?_cons_succ] at h
    by_cases htime : head.InTime
    · rw [v2Rpc_own htime] at h
      cases i with
      | zero =>
        obtain rfl : head = c := by simpa using hc
        exact absurd htime hlate
      | succ i =>
        have := ih (n + 1) i j c (by omega) (by simpa using hc) hlate done h
        rwa [Nat.add_right_comm, Nat.add_assoc] at this
    · rw [v2Rpc_late htime] at h
      have := run_not_own calls (n + 1) _ (by simp) (by simp) j done h
      rwa [Nat.add_right_comm, Nat.add_assoc] at this

/-! ### Schedules -/

/-- No call returns the reply to another request, and each request that is answered in time gets its own reply. -/
structure Matched (clock : Nat → UInt64) (S : Schedule parse) : Prop where
  own : ∀ (i : Nat) done resp, (S.ends clock)[i]? = some done → done.outcome = .returned resp → done.taken = some i
  inTime : ∀ (i : Nat) c, S.calls[i]? = some c → c.InTime → ∃ done resp, (S.ends clock)[i]? = some done ∧ done.taken = some i ∧
    parse c.respType c.answer = some resp ∧ done.outcome = .returned resp

/-- Whatever the delays, a call that returns a response returns the one to its own request. -/
theorem ends_own (S : Schedule parse) (i : Nat) (done : Done α) (resp : α) (hdone : (S.ends clock)[i]? = some done)
    (hresp : done.outcome = .returned resp) : done.taken = some i := by
  obtain ⟨c, hc, htaken⟩ := run_answers S.calls 0 [] rfl (fun p hp => absurd hp List.not_mem_nil) i done hdone
  obtain ⟨k, d, hk, hd, hcheck⟩ := htaken resp hresp
  rw [hresp] at hcheck
  have hid := msgId_eq_of_returned (S.ne_zero d (List.mem_of_getElem? hd)) hcheck.symm
  have hlt : k < (S.calls.map (·.msgId)).length := by
    rw [List.length_map]
    exact (List.getElem?_eq_some_iff.mp hd).1
  have hki : k = i := (List.getElem?_inj hlt S.nodup).mp (by rw [List.getElem?_map, List.getElem?_map, hd, hc, Option.map_some,
    Option.map_some, hid])
  rw [hk, hki]

/-- Replies are matched to requests throughout a schedule exactly when every request before one that is answered in time is
answered in time itself. -/
theorem matched_iff (clock : Nat → UInt64) (parse : MessageTypeV2 → Bytes → Option α) (S : Schedule parse) : Matched clock S ↔
    ∀ (i j : Nat) (c d : Call), i < j → S.calls[i]? = some c → S.calls[j]? = some d → d.InTime → c.InTime := by
  constructor
  · intro h i j c d hij hc hd htime
    by_contra hlate
    obtain ⟨done, resp, hdone, htaken, -, -⟩ := h.inTime j d hd htime
    refine run_not_own_of_late S.calls 0 i j c hij hc hlate done hdone ?_
    rw [htaken, Nat.zero_add]
  · intro h
    refine ⟨fun i done resp => ends_own S i done resp, fun i c hc htime => ?_⟩
    have hdone := run_own clock parse S.calls 0 i c hc (fun j d hj hd => h j i d c hj hd hc htime) htime
    have hmem := List.mem_of_getElem? hc
    obtain ⟨resp, hresp⟩ := S.parses c hmem
    refine ⟨_, resp, hdone, by rw [Nat.zero_add], hresp, check_own (S.paired c hmem) hresp⟩

/-! ### A late reply -/

/-- Two status requests with a timeout of 5: the reply to the first arrives after 7, so its call ends at 5; the second is sent at 6
and answered at 8. -/
def lateSchedule : Schedule fun _ payload => some payload where
  calls := [{ reqType := 408, respType := 409, msgId := 1, start := 0, timeout := 5, arrives := 7 },
    { reqType := 408, respType := 409, msgId := 2, start := 6, timeout := 5, arrives := 8 }]
  ne_zero := by decide
  nodup := by decide
  paired := by decide
  parses _ _ := ⟨_, rfl⟩
  sent := by decide
  ordered := by decide

/-- The second call takes the late reply to the first, and its own is not taken. -/
theorem lateSchedule_not_matched : ¬∀ (clock : Nat → UInt64) (S : Schedule fun _ payload => some payload), Matched clock S := by
  intro h
  obtain ⟨done, resp, hdone, htaken, -, -⟩ := (h (fun _ => 0) lateSchedule).inTime 1 _ rfl (by decide)
  exact run_not_own_of_late lateSchedule.calls 0 0 1 _ (by decide) rfl (by decide) done hdone htaken

end HdMezzClient
end DaphneZmq
