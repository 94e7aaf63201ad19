import DaphneZmq.Lib.Correlation
import DaphneZmq.Oscilloscope
import DaphneZmq.Theorems.Router
import Mathlib.Data.List.Induction
import Mathlib.Data.Nat.Bitwise

/-! What the oscilloscope shows and saves. The worker, its links and the server refine requests and replies with ids, so that a
    frame answers the request of its own poll, whatever is left over from links that were given up. -/

namespace DaphneZmq.Osc
open Lib.Wire

variable {δ : Type} {c : Config} {R : Router δ} {s s' : System δ} {a : Action}

/-! ### What a step can do -/

/-- What has come in on the link. -/
def Worker.inbox (w : Worker) : List Bytes := (w.link.map Link.inbox).getD []

/-- How many requests the link has sent. -/
def Worker.seq (w : Worker) : Nat := (w.link.map Link.seq).getD 0

/-- The worker's link is that of `w₀`, with no more in it, or there is none. -/
structure Worker.Within (w w₀ : Worker) : Prop where
  inbox : w.inbox ⊆ w₀.inbox
  seq : w.seq ≤ w₀.seq

theorem Worker.within_of_eq {w w₀ : Worker} (h : w.link = w₀.link) : w.Within w₀ := by
  constructor
  · rw [Worker.inbox, h]
    exact List.Subset.refl _
  · rw [Worker.seq, h]
    exact Nat.le_refl _

theorem Worker.Within.trans {w w₁ w₂ : Worker} (h : w.Within w₁) (h' : w₁.Within w₂) : w.Within w₂ :=
  ⟨fun _ hmem => h'.inbox (h.inbox hmem), h.seq.trans h'.seq⟩

theorem Worker.within_of_link {w w₀ : Worker} (h : w.link = none) : w.Within w₀ := by
  constructor
  · rw [Worker.inbox, h]
    exact List.nil_subset _
  · rw [Worker.seq, h]
    exact Nat.zero_le _

/-- The frames that are shown. -/
def plots (outputs : List Output) : List Frame :=
  outputs.filterMap fun
    | .plotUpdate yk _ => some yk
    | _ => none

@[simp] theorem plots_append (o o' : List Output) : plots (o ++ o') = plots o ++ plots o' := List.filterMap_append

/-- The worker can poll once it is idle. -/
def Worker.Open (w : Worker) : Prop := w.stopEvt = false ∧ w.timer = true

/-- The actions that stop the acquisition or the disk writer. -/
def Action.Disturbs : Action → Prop
  | .stop => True
  | .requestStop => True
  | .full writerError => writerError ≠ ""
  | _ => False

/-- What is left of the worker after a frame, `finishIfDone` included. -/
structure Settled (c : Config) (w w' : Worker) : Prop where
  awaiting : w'.awaiting = none
  saving : w'.saving = none
  within : w'.Within w
  framesAcquired : w'.framesAcquired = w.framesAcquired
  opened : w'.Open → w.Open ∧ (0 < c.limit → w.framesAcquired < c.limit)

theorem settled_finishIfDone {w : Worker} (hawaiting : w.awaiting = none) (hsaving : w.saving = none) :
    Settled c w (w.finishIfDone c).1 ∧ plots (w.finishIfDone c).2 = [] ∧ (w.finishIfDone c).1.saveQueue = w.saveQueue := by
  unfold Worker.finishIfDone
  split
  · exact ⟨⟨hawaiting, hsaving, Worker.within_of_eq rfl, rfl, fun h => absurd h.1 (by simp)⟩, rfl, rfl⟩
  next hdone =>
    exact ⟨⟨hawaiting, hsaving, Worker.within_of_eq rfl, rfl, fun h => ⟨h, fun hlimit => by omega⟩⟩, rfl, rfl⟩

/-- What a step can do. -/
inductive Move (c : Config) (R : Router δ) (s : System δ) : Action → System δ → Prop where
  /-- Something about the worker itself, and no frame. -/
  | quiet {a : Action} (w : Worker) (outputs : List Output) (awaiting : w.awaiting = none ∨ w.awaiting = s.worker.awaiting)
      (saving : w.saving = s.worker.saving) (within : w.Within s.worker) (saveQueue : w.saveQueue = s.worker.saveQueue)
      (framesAcquired : s.worker.framesAcquired ≤ w.framesAcquired) (hplots : plots outputs = [])
      (opened : w.Open → w.saving = none → s.worker.Open ∨ s.worker.awaiting.isSome ∨ a = .start)
      (stopped : w.stopEvt = true → s.worker.stopEvt = true ∨ a.Disturbs) : Move c R s a (s.becomes (w, outputs))
  | send (r : Readings) (link : Link) (outputs : List Output) (idle : s.worker.awaiting = none ∧ s.worker.saving = none)
      (opened : s.worker.Open) (inbox : link.inbox ⊆ s.worker.inbox)
      (seq : link.seq = s.worker.seq + 1) (hplots : plots outputs = [])
      (fits : (writeFields (envelopeOf c link r).fields).length ≤ intMax) : Move c R s (.poll r) { s with
        worker := { s.worker with link := some link, awaiting := some (envelopeOf c link r) }
        outputs := s.outputs ++ outputs
        requests := s.requests ++ [envelopeOf c link r]
        history := .sent (envelopeOf c link r) :: s.history }
  /-- A frame is acquired and is about to be put. -/
  | acquire {a : Action} {env rep : ControlEnvelopeV2} {frame : Bytes} {yk : Frame} (w : Worker) (n : Nat)
      (awaiting : s.worker.awaiting = some env) (hframe : frame ∈ s.worker.inbox) (check : checkReply env frame = .ok rep)
      (hcontent : content rep = .ok (.frame yk)) (done : w.awaiting = none) (saving : w.saving = some yk) (within : w.Within s.worker)
      (saveQueue : s.worker.saveQueue = true ∧ w.saveQueue = true) (framesAcquired : w.framesAcquired = s.worker.framesAcquired + 1)
      (stopEvt : w.stopEvt = s.worker.stopEvt) :
      Move c R s a { s with worker := w, outputs := s.outputs ++ [.plotUpdate yk n], history := .acquired rep yk :: s.history }
  /-- A frame is acquired, and there is no queue for it. -/
  | acquireUnsaved {a : Action} {env rep : ControlEnvelopeV2} {frame : Bytes} {yk : Frame} (w : Worker) (n : Nat) (outputs : List Output)
      (awaiting : s.worker.awaiting = some env) (hframe : frame ∈ s.worker.inbox) (check : checkReply env frame = .ok rep)
      (hcontent : content rep = .ok (.frame yk)) (settled : Settled c { s.worker with framesAcquired := s.worker.framesAcquired + 1 } w)
      (saveQueue : s.worker.saveQueue = false ∧ w.saveQueue = false) (hplots : plots outputs = []) :
      Move c R s a { s with
        worker := w
        outputs := s.outputs ++ .plotUpdate yk n :: outputs
        history := .skipped yk :: .acquired rep yk :: s.history }
  | queue {yk : Frame} (w : Worker) (outputs : List Output) (saving : s.worker.saving = some yk) (settled : Settled c s.worker w)
      (saveQueue : w.saveQueue = s.worker.saveQueue) (hplots : plots outputs = []) (room : s.queue.length < c.capacity) :
      Move c R s .put { s with
        worker := w, outputs := s.outputs ++ outputs, queue := s.queue ++ [yk], history := .queued yk :: s.history }
  | skip {a : Action} {yk : Frame} (w : Worker) (outputs : List Output) (saving : s.worker.saving = some yk) (settled : Settled c s.worker w)
      (hplots : plots outputs = []) (disturbed : a.Disturbs ∨ s.worker.stopEvt = true) :
      Move c R s a { s with worker := w, outputs := s.outputs ++ outputs, history := .skipped yk :: s.history }
  | consume (yk : Frame) (rest : List Frame) (hqueue : s.queue = yk :: rest) : Move c R s .consume { s with queue := rest }
  | serve (i : Nat) {st : Router.State δ} {env : ControlEnvelopeV2} (server : s.server = some st) (henv : env ∈ s.requests) :
      Move c R s (.serve i) { s with
        server := (R.serveMessage st [c.identity, writeFields env.fields]).2
        requests := s.requests.eraseIdx i
        replies := s.replies ++ (R.serveMessage st [c.identity, writeFields env.fields]).1.map fun r => serializeAsString r.envelope.fields
        history := (R.serveMessage st [c.identity, writeFields env.fields]).1.map (fun _ => .served env st) ++ s.history }
  | serveOther {a : Action} (server : Option (Router.State δ)) : Move c R s a { s with server }
  | arrive (i : Nat) {link : Link} {frame : Bytes} (hlink : s.worker.link = some link) (hframe : frame ∈ s.replies) :
      Move c R s (.arrive i) { s with
        worker := { s.worker with link := some { link with inbox := link.inbox ++ [frame] } }
        replies := s.replies.eraseIdx i }
  | lose {a : Action} {requests : List ControlEnvelopeV2} {replies : List Bytes} (hrequests : requests ⊆ s.requests)
      (hreplies : replies ⊆ s.replies) : Move c R s a { s with requests, replies }

theorem ensureLink_spec (w : Worker) (r : Readings) : (ensureLink c w.link r).1.inbox ⊆ w.inbox ∧
    (ensureLink c w.link r).1.seq = w.seq + 1 ∧ plots (ensureLink c w.link r).2 = [] := by
  unfold ensureLink Worker.inbox Worker.seq
  cases w.link with
  | none => exact ⟨fun _ h => h, rfl, rfl⟩
  | some link => exact ⟨fun _ h => h, rfl, rfl⟩

theorem idle_iff {w : Worker} : w.idle = true ↔ w.awaiting = none ∧ w.saving = none := by
  simp [Worker.idle]

theorem becomes_outputs (o : List Output) (r : Worker × List Output) :
    { s with outputs := s.outputs ++ o }.becomes r = s.becomes (r.1, o ++ r.2) := by
  simp only [System.becomes, List.append_assoc]

/-- An exception, or a refusal of the server, while the worker waits. -/
theorem move_quiet_of_awaiting {w : Worker} {outputs : List Output} (hawaiting : s.worker.awaiting.isSome) (hw : w.awaiting = none)
    (hsaving : w.saving = s.worker.saving) (hwithin : w.Within s.worker) (hqueue : w.saveQueue = s.worker.saveQueue)
    (hframes : s.worker.framesAcquired ≤ w.framesAcquired) (hplots : plots outputs = []) (hstop : w.stopEvt = s.worker.stopEvt) :
    Move c R s a (s.becomes (w, outputs)) :=
  .quiet w outputs (Or.inl hw) hsaving hwithin hqueue hframes hplots (fun _ _ => Or.inr (Or.inl hawaiting))
    fun h => Or.inl (hstop ▸ h)

theorem move_receiveFrame {env : ControlEnvelopeV2} {link : Link} {frame : Bytes} {rest : List Bytes} (raises : Option String)
    (hawaiting : s.worker.awaiting = some env) (hidle : s.worker.saving = none) (hlink : s.worker.link = some link)
    (hinbox : link.inbox = frame :: rest) : Move c R s a (receiveFrame c s env link frame rest raises) := by
  have hsome : s.worker.awaiting.isSome := by rw [hawaiting]; rfl
  have hsworker : s.worker.inbox = frame :: rest := by rw [Worker.inbox, hlink]; exact hinbox
  have hrest {w : Worker} (hw : w.link = some { link with inbox := rest }) : w.Within s.worker := by
    refine ⟨?_, ?_⟩
    · rw [Worker.inbox, hw, hsworker]
      exact List.subset_cons_self ..
    · rw [Worker.seq, hw, Worker.seq, hlink]
      exact Nat.le_refl _
  have hframe : frame ∈ s.worker.inbox := hsworker ▸ List.mem_cons_self ..
  unfold receiveFrame
  cases hcheck : checkReply env frame with
  | error text => exact move_quiet_of_awaiting hsome rfl rfl (Worker.within_of_link rfl) rfl (Nat.le_refl _) rfl rfl
  | ok rep =>
  dsimp only
  cases hcontent : content rep with
  | error text => exact move_quiet_of_awaiting hsome rfl rfl (Worker.within_of_link rfl) rfl (Nat.le_refl _) rfl rfl
  | ok found =>
  cases found with
  | refused message => exact move_quiet_of_awaiting hsome rfl rfl (hrest rfl) rfl (Nat.le_refl _) rfl rfl
  | frame yk =>
    cases raises with
    | some text => exact move_quiet_of_awaiting hsome rfl rfl (Worker.within_of_link rfl) rfl (Nat.le_succ _) rfl rfl
    | none =>
      dsimp only
      split
      next hqueue =>
        simp only [System.becomes, List.append_nil]
        exact .acquire _ _ hawaiting hframe hcheck hcontent rfl rfl (hrest rfl) ⟨hqueue, hqueue⟩ rfl rfl
      next hqueue =>
        have hnone := Bool.eq_false_of_not_eq_true hqueue
        obtain ⟨hsettled, hplots, hsame⟩ := settled_finishIfDone (c := c) (w := { s.worker with
          awaiting := none, link := some { link with inbox := rest }, framesAcquired := s.worker.framesAcquired + 1 }) rfl hidle
        simp only [System.becomes, List.append_assoc, List.singleton_append]
        refine .acquireUnsaved _ _ _ hawaiting hframe hcheck hcontent ?_ ⟨hnone, hsame.trans hnone⟩ hplots
        exact { hsettled with within := (hsettled.within.trans (hrest rfl)).trans (Worker.within_of_eq rfl) }

theorem move_of_step (hidle : s.worker.awaiting = none ∨ s.worker.saving = none) (h : step c R a s = some s') : Move c R s a s' := by
  cases a with
  | start =>
    simp only [step, Option.ite_none_right_eq_some, Option.some.injEq] at h
    obtain ⟨-, rfl⟩ := h
    exact .quiet _ _ (Or.inr rfl) rfl (Worker.within_of_eq rfl) rfl (Nat.le_refl _) rfl (fun _ _ => Or.inr (Or.inr rfl)) fun h => absurd h (by simp)
  | stop =>
    simp only [step, Option.ite_none_right_eq_some, Option.some.injEq] at h
    obtain ⟨-, rfl⟩ := h
    exact .quiet _ _ (Or.inr rfl) rfl (Worker.within_of_link rfl) rfl (Nat.le_refl _) rfl (fun h _ => absurd h.1 (by simp)) fun _ => Or.inr trivial
  | requestStop =>
    simp only [step, Option.some.injEq] at h
    subst h
    exact .quiet _ _ (Or.inr rfl) rfl (Worker.within_of_eq rfl) rfl (Nat.le_refl _) rfl (fun h _ => absurd h.1 (by simp)) fun _ => Or.inr trivial
  | poll r =>
    simp only [step, Option.ite_none_right_eq_some, Bool.and_eq_true, Bool.not_eq_true'] at h
    obtain ⟨⟨⟨hfree, htimer⟩, hstop⟩, h⟩ := h
    obtain ⟨hinbox, hseq, hplots⟩ := ensureLink_spec (c := c) s.worker r
    split at h
    next hfits =>
      cases h
      exact .send r _ _ (idle_iff.mp hfree) ⟨hstop, htimer⟩ hinbox hseq hplots hfits
    next =>
      cases h
      rw [becomes_outputs]
      refine .quiet _ _ (Or.inl rfl) rfl (Worker.within_of_link rfl) rfl (Nat.le_refl _) ?_ (fun h _ => Or.inl ⟨hstop, htimer⟩) fun h => Or.inl h
      rw [plots_append, hplots]
      rfl
  | sendTimeout r =>
    simp only [step, Option.ite_none_right_eq_some, Option.some.injEq, Bool.and_eq_true, Bool.not_eq_true'] at h
    obtain ⟨⟨⟨hfree, htimer⟩, hstop⟩, rfl⟩ := h
    obtain ⟨-, -, hplots⟩ := ensureLink_spec (c := c) s.worker r
    rw [becomes_outputs]
    refine .quiet _ _ (Or.inl rfl) rfl (Worker.within_of_link rfl) rfl (Nat.le_refl _) ?_ (fun h _ => Or.inl ⟨hstop, htimer⟩) fun h => Or.inl h
    rw [plots_append, hplots]
    rfl
  | interrupted =>
    simp only [step, Option.ite_none_right_eq_some, Option.some.injEq, Bool.and_eq_true] at h
    obtain ⟨⟨hawaiting, -⟩, rfl⟩ := h
    exact move_quiet_of_awaiting hawaiting rfl rfl (Worker.within_of_eq rfl) rfl (Nat.le_refl _) rfl rfl
  | timedOut =>
    simp only [step, Option.ite_none_right_eq_some, Option.some.injEq] at h
    obtain ⟨hawaiting, rfl⟩ := h
    exact move_quiet_of_awaiting hawaiting rfl rfl (Worker.within_of_link rfl) rfl (Nat.le_refl _) rfl rfl
  | receive raises =>
    simp only [step] at h
    split at h
    next env link hawaiting hlink =>
      split at h
      next frame rest hinbox =>
        cases h
        refine move_receiveFrame raises hawaiting (hidle.resolve_left fun hnone => ?_) hlink hinbox
        rw [hnone] at hawaiting
        cases hawaiting
      next => cases h
    next => cases h
  | put =>
    simp only [step] at h
    split at h
    next yk hsaving =>
      simp only [Option.ite_none_right_eq_some, Option.some.injEq, Bool.and_eq_true, decide_eq_true_eq] at h
      obtain ⟨⟨-, hroom⟩, rfl⟩ := h
      have hawaiting := hidle.resolve_right fun hnone => by rw [hnone] at hsaving; cases hsaving
      obtain ⟨hsettled, hplots, hsame⟩ := settled_finishIfDone (c := c) (w := { s.worker with saving := none }) hawaiting rfl
      exact .queue _ _ hsaving { hsettled with within := hsettled.within.trans (Worker.within_of_eq rfl) } hsame hplots hroom
    next => cases h
  | full writerError =>
    simp only [step] at h
    split at h
    next yk hsaving =>
      split at h
      next hgo =>
        split at h
        next herror =>
          cases h
          have hawaiting := hidle.resolve_right fun hnone => by rw [hnone] at hsaving; cases hsaving
          obtain ⟨hsettled, hplots, hsame⟩ :=
            settled_finishIfDone (c := c) (w := { s.worker with saving := none, saveQueue := false }) hawaiting rfl
          exact .skip _ _ hsaving { hsettled with within := hsettled.within.trans (Worker.within_of_eq rfl) } (by rw [← hplots]; rfl) (Or.inl herror)
        next =>
          cases h
          simp only [Bool.and_eq_true, Bool.not_eq_true'] at hgo
          refine .quiet _ _ (Or.inr rfl) rfl (Worker.within_of_eq rfl) rfl (Nat.le_refl _) ?_ (fun _ hnone => ?_) fun h => Or.inl h
          · split <;> rfl
          · rw [show s.worker.saving = none from hnone] at hsaving
            cases hsaving
      next => cases h
    next => cases h
  | giveUp =>
    simp only [step] at h
    split at h
    next yk hsaving =>
      simp only [Option.ite_none_right_eq_some, Option.some.injEq] at h
      obtain ⟨hstop, rfl⟩ := h
      have hawaiting := hidle.resolve_right fun hnone => by rw [hnone] at hsaving; cases hsaving
      obtain ⟨hsettled, hplots, -⟩ := settled_finishIfDone (c := c) (w := { s.worker with saving := none }) hawaiting rfl
      exact .skip _ _ hsaving { hsettled with within := hsettled.within.trans (Worker.within_of_eq rfl) } hplots (Or.inr hstop)
    next => cases h
  | consume =>
    simp only [step, Option.ite_none_left_eq_some, Option.some.injEq] at h
    obtain ⟨hne, rfl⟩ := h
    obtain ⟨yk, rest, hqueue⟩ := List.exists_cons_of_ne_nil hne
    rw [hqueue]
    exact .consume yk rest hqueue
  | serve i =>
    simp only [step] at h
    split at h
    next st env hserver henv =>
      cases h
      exact .serve i hserver (List.mem_of_getElem? henv)
    next => cases h
  | serveOther clientId frames =>
    simp only [step] at h
    split at h
    next =>
      simp only [Option.ite_none_right_eq_some, Option.some.injEq] at h
      obtain ⟨-, rfl⟩ := h
      exact .serveOther _
    next => cases h
  | arrive i =>
    simp only [step] at h
    split at h
    next link frame hlink hframe =>
      cases h
      exact .arrive i hlink (List.mem_of_getElem? hframe)
    next => cases h
  | loseRequest i =>
    simp only [step, Option.some.injEq] at h
    subst h
    exact .lose (List.eraseIdx_subset ..) (List.Subset.refl _)
  | loseReply i =>
    simp only [step, Option.some.injEq] at h
    subst h
    exact .lose (List.Subset.refl _) (List.eraseIdx_subset ..)

/-! ### Runs -/

theorem Move.idle (h : Move c R s a s') (hs : s.worker.awaiting = none ∨ s.worker.saving = none) :
    s'.worker.awaiting = none ∨ s'.worker.saving = none := by
  cases h with
  | quiet w outputs awaiting saving =>
    rcases awaiting with hnone | hsame
    · exact Or.inl hnone
    · exact hs.imp (hsame.trans ·) (saving.trans ·)
  | send r link outputs idle => exact Or.inr idle.2
  | acquire w n awaiting hframe check hcontent done => exact Or.inl done
  | acquireUnsaved w n outputs awaiting hframe check hcontent settled => exact Or.inl settled.awaiting
  | queue w outputs saving settled => exact Or.inl settled.awaiting
  | skip w outputs saving settled => exact Or.inl settled.awaiting
  | consume => exact hs
  | serve => exact hs
  | serveOther => exact hs
  | arrive => exact hs
  | lose => exact hs

theorem run_concat (actions : List Action) : run c R (actions ++ [a]) s = (run c R actions s).bind (step c R a) := by
  simp only [run, List.foldlM_append, List.foldlM_cons, List.foldlM_nil, bind_pure]
  rfl

/-- What holds at the start and is kept by the moves holds after a run. -/
theorem run_invariant {st : Router.State δ} {P : List Action → System δ → Prop} (hstart : P [] (.start c st))
    (hmove : ∀ actions a {s s'}, P actions s → Move c R s a s' → P (actions ++ [a]) s') {actions : List Action}
    (h : run c R actions (.start c st) = some s) : P actions s := by
  suffices h : P actions s ∧ (s.worker.awaiting = none ∨ s.worker.saving = none) from h.1
  induction actions using List.reverseRec generalizing s with
  | nil =>
    cases h
    exact ⟨hstart, Or.inl rfl⟩
  | append_singleton actions a ih =>
    rw [run_concat] at h
    obtain ⟨t, ht, hstep⟩ := Option.bind_eq_some_iff.mp h
    obtain ⟨hP, hidle⟩ := ih ht
    have hmoved := move_of_step hidle hstep
    exact ⟨hmove _ _ hP hmoved, hmoved.idle hidle⟩

/-! ### Replies to requests -/

/-- The envelope with which the server replies. -/
def answerOf (c : Config) (R : Router δ) (env : ControlEnvelopeV2) (st : Router.State δ) : ControlEnvelopeV2 :=
  (R.serveRequest st c.identity env).1.envelope

theorem correlId_answerOf (env : ControlEnvelopeV2) (st : Router.State δ) : (answerOf c R env st).correlId = env.msgId :=
  (R.serveRequest_answers st c.identity env).correlId

theorem payload_answerOf (env : ControlEnvelopeV2) (st : Router.State δ) : (answerOf c R env st).payload = R.outputOf st env :=
  (R.serveRequest_answers st c.identity env).payload

/-- A request of the worker, as the server reads it. -/
structure Asks (env : ControlEnvelopeV2) : Prop where
  version : env.version = 2
  dir : env.dir = Direction.dirRequest
  type : env.type = MessageTypeV2.mt2DumpSpybufferReq
  fits : (writeFields env.fields).length ≤ intMax

theorem Asks.carries {env : ControlEnvelopeV2} (h : Asks env) (hle : (writeFields env.fields).length ≤ R.maxEnvelopeBytes) :
    R.Carries [c.identity, writeFields env.fields] c.identity env := by
  have hparse := ControlEnvelopeV2.parse_serialize h.fits
  rw [serializeAsString_of_le h.fits] at hparse
  exact ⟨Nat.le_refl 2, rfl, ⟨_, rfl, hle, hparse⟩, h.version, h.dir⟩

/-- The server answers a request that it can read, and only that. -/
theorem serveMessage_asks {env : ControlEnvelopeV2} (h : Asks env) (st : Router.State δ) :
    (R.serveMessage st [c.identity, writeFields env.fields]).1 = [] ∨
      R.serveMessage st [c.identity, writeFields env.fields] =
        ([(R.serveRequest st c.identity env).1], some (R.serveRequest st c.identity env).2) := by
  by_cases hcarries : R.Carries [c.identity, writeFields env.fields] c.identity env
  · right
    rw [Router.serveMessage_of_carries hcarries, if_neg (by rw [h.type]; decide)]
  · left
    rw [Router.serveMessage_of_not_carries]
    intro clientId req hreq
    obtain ⟨frame, hlast, hle, hparse⟩ := hreq.last
    cases hlast
    exact hcarries (h.carries hle)

/-- A reply that passes the checks is the one that the server has made. -/
theorem checkReply_serialize {env rep rep' : ControlEnvelopeV2} (h : checkReply env (serializeAsString rep.fields) = .ok rep') :
    rep' = rep ∧ rep.correlId = env.msgId := by
  unfold checkReply at h
  split at h
  next => cases h
  next read hread =>
    split at h
    next => cases h
    next hdir =>
    split at h
    next => cases h
    next hcorrel =>
      cases h
      by_cases hsize : (writeFields rep.fields).length ≤ intMax
      · have hparse := ControlEnvelopeV2.parse_serialize hsize
        rw [parseFromArray_of_le (by rw [serializeAsString_of_le hsize]; exact hsize)] at hparse
        rw [hparse] at hread
        cases hread
        exact ⟨rfl, not_not.mp hcorrel⟩
      · -- nothing is sent of a reply that does not fit, and nothing has no direction
        rw [serializeAsString, if_neg hsize] at hread
        have hempty : ControlEnvelopeV2.parseFromString [] = some {} := rfl
        rw [hempty] at hread
        cases hread
        exact absurd (by decide) hdir

/-! ### The refinement -/

abbrev Abstract := Lib.Correlation.State UInt64 ControlEnvelopeV2 ControlEnvelopeV2

/-- What an event is for the requests and their replies. -/
def Event.correlated (c : Config) (R : Router δ) : Event δ → Option (Lib.Correlation.Event UInt64 ControlEnvelopeV2 ControlEnvelopeV2)
  | .sent env => some (.sent env.msgId env)
  | .served env st => some (.served env.msgId env (answerOf c R env st))
  | .acquired rep _ => some (.accepted rep.correlId rep)
  | .queued _ => none
  | .skipped _ => none

structure Refines (c : Config) (R : Router δ) (s : System δ) (t : Abstract) : Prop where
  history : t.history = s.history.filterMap (Event.correlated c R)
  pending : ∀ env, s.worker.awaiting = some env → t.pending = some env.msgId
  requests : ∀ env ∈ s.requests, Asks env ∧ (env.msgId, env) ∈ t.requests
  replies : ∀ frame ∈ s.replies ++ s.worker.inbox, ∃ rep, frame = serializeAsString rep.fields ∧ (rep.correlId, rep) ∈ t.replies

theorem refines_start (st : Router.State δ) : Refines c R (.start c st) .start where
  history := rfl
  pending _ h := by cases h
  requests _ h := by cases h
  replies _ h := by cases h

section
variable {t : Abstract}

/-- Nothing comes in but what the server has sent. -/
theorem Refines.inbox (h : Refines c R s t) {w : Worker} (hw : w.inbox ⊆ s.worker.inbox) : ∀ frame ∈ s.replies ++ w.inbox,
    ∃ rep, frame = serializeAsString rep.fields ∧ (rep.correlId, rep) ∈ t.replies := fun frame hframe =>
  h.replies frame ((List.mem_append.mp hframe).elim (List.mem_append_left _ ·) fun hmem => List.mem_append_right _ (hw hmem))

/-- A reply that passes the checks is accepted. -/
theorem Refines.accepts (h : Refines c R s t) {env rep : ControlEnvelopeV2} {frame : Bytes} (hawaiting : s.worker.awaiting = some env)
    (hframe : frame ∈ s.worker.inbox) (hcheck : checkReply env frame = .ok rep) :
    Lib.Correlation.Step t ⟨none, t.requests, t.replies, .accepted rep.correlId rep :: t.history⟩ := by
  obtain ⟨sent, rfl, hsent⟩ := h.replies frame (List.mem_append_right _ hframe)
  obtain ⟨rfl, hcorrel⟩ := checkReply_serialize hcheck
  exact .accept ((h.pending env hawaiting).trans (congrArg some hcorrel.symm)) hsent

theorem Refines.sent (h : Refines c R s t) {env : ControlEnvelopeV2} (hasks : Asks env) {w : Worker} (hawaiting : w.awaiting = some env)
    (hinbox : w.inbox ⊆ s.worker.inbox) (outputs : List Output) :
    Refines c R { s with worker := w, outputs, requests := s.requests ++ [env], history := .sent env :: s.history }
      ⟨some env.msgId, insert (env.msgId, env) t.requests, t.replies, .sent env.msgId env :: t.history⟩ where
  history := by simp only [List.filterMap_cons, Event.correlated, h.history]
  pending env' henv := by
    rw [show w.awaiting = some env' from henv] at hawaiting
    cases hawaiting
    rfl
  requests env' henv := by
    rcases List.mem_append.mp henv with hmem | hmem
    · exact ⟨(h.requests env' hmem).1, Set.mem_insert_of_mem _ (h.requests env' hmem).2⟩
    · cases List.mem_singleton.mp hmem
      exact ⟨hasks, Set.mem_insert _ _⟩
  replies := h.inbox hinbox

theorem Refines.served (h : Refines c R s t) (i : Nat) (env : ControlEnvelopeV2) (st : Router.State δ) (server : Option (Router.State δ)) :
    Refines c R { s with
        server
        requests := s.requests.eraseIdx i
        replies := s.replies ++ [serializeAsString (answerOf c R env st).fields]
        history := .served env st :: s.history }
      ⟨t.pending, t.requests, insert (env.msgId, answerOf c R env st) t.replies,
        .served env.msgId env (answerOf c R env st) :: t.history⟩ where
  history := by simp only [List.filterMap_cons, Event.correlated, h.history]
  pending := h.pending
  requests env henv := h.requests env (List.eraseIdx_subset henv)
  replies frame hframe := by
    have earlier (hmem : frame ∈ s.replies ++ s.worker.inbox) : ∃ rep, frame = serializeAsString rep.fields ∧
        (rep.correlId, rep) ∈ insert (env.msgId, answerOf c R env st) t.replies := by
      obtain ⟨rep, hrep, hmem⟩ := h.replies frame hmem
      exact ⟨rep, hrep, Set.mem_insert_of_mem _ hmem⟩
    rcases List.mem_append.mp hframe with hmem | hmem
    · rcases List.mem_append.mp hmem with hmem | hmem
      · exact earlier (List.mem_append_left _ hmem)
      · refine ⟨answerOf c R env st, List.mem_singleton.mp hmem, Set.mem_insert_iff.mpr (Or.inl ?_)⟩
        rw [correlId_answerOf]
    · exact earlier (List.mem_append_right _ hmem)

theorem Refines.move (h : Refines c R s t) (hmove : Move c R s a s') :
    ∃ t' : Abstract, (t' = t ∨ Lib.Correlation.Step t t') ∧ Refines c R s' t' := by
  cases hmove with
  | quiet w outputs awaiting saving within =>
    rcases awaiting with hnone | hsame
    · exact ⟨⟨none, t.requests, t.replies, t.history⟩, Or.inr (.abandon t),
        ⟨h.history, fun env henv => (nomatch hnone.symm.trans henv), h.requests, h.inbox within.inbox⟩⟩
    · exact ⟨t, Or.inl rfl, ⟨h.history, fun env henv => h.pending env (hsame ▸ henv), h.requests, h.inbox within.inbox⟩⟩
  | send r link outputs idle opened hinbox seq hplots fits =>
    have hlink : Worker.inbox { s.worker with link := some link, awaiting := some (envelopeOf c link r) } ⊆ s.worker.inbox := hinbox
    exact ⟨_, Or.inr (.send t (envelopeOf c link r).msgId (envelopeOf c link r)), h.sent ⟨rfl, rfl, rfl, fits⟩ rfl hlink _⟩
  | acquire w n awaiting hframe check hcontent done saving within =>
    refine ⟨_, Or.inr (h.accepts awaiting hframe check),
      ⟨?_, fun env henv => (nomatch done.symm.trans henv), h.requests, h.inbox within.inbox⟩⟩
    simp only [List.filterMap_cons, Event.correlated, h.history]
  | acquireUnsaved w n outputs awaiting hframe check hcontent settled =>
    refine ⟨_, Or.inr (h.accepts awaiting hframe check),
      ⟨?_, fun env henv => (nomatch settled.awaiting.symm.trans henv), h.requests, h.inbox settled.within.inbox⟩⟩
    simp only [List.filterMap_cons, Event.correlated, h.history]
  | queue w outputs saving settled =>
    refine ⟨t, Or.inl rfl, ⟨?_, fun env henv => (nomatch settled.awaiting.symm.trans henv), h.requests, h.inbox settled.within.inbox⟩⟩
    simp only [List.filterMap_cons, Event.correlated, h.history]
  | skip w outputs saving settled =>
    refine ⟨t, Or.inl rfl, ⟨?_, fun env henv => (nomatch settled.awaiting.symm.trans henv), h.requests, h.inbox settled.within.inbox⟩⟩
    simp only [List.filterMap_cons, Event.correlated, h.history]
  | consume => exact ⟨t, Or.inl rfl, ⟨h.history, h.pending, h.requests, h.replies⟩⟩
  | @serve i st env server henv =>
    obtain ⟨hasks, hsent⟩ := h.requests env henv
    rcases serveMessage_asks hasks st with hnone | hone
    · refine ⟨t, Or.inl rfl, ?_⟩
      rw [hnone, List.map_nil, List.map_nil, List.append_nil]
      exact ⟨h.history, h.pending, fun env henv => h.requests env (List.eraseIdx_subset henv), h.replies⟩
    · refine ⟨_, Or.inr (.serve hsent (answerOf c R env st)), ?_⟩
      rw [hone]
      exact h.served i env st _
  | serveOther => exact ⟨t, Or.inl rfl, ⟨h.history, h.pending, h.requests, h.replies⟩⟩
  | arrive i hlink hframe =>
    refine ⟨t, Or.inl rfl, ⟨h.history, h.pending, h.requests, fun frame hmem => h.replies frame ?_⟩⟩
    rw [Worker.inbox, hlink]
    rcases List.mem_append.mp hmem with hmem | hmem
    · exact List.mem_append_left _ (List.eraseIdx_subset hmem)
    rcases List.mem_append.mp hmem with hmem | hmem
    · exact List.mem_append_right _ hmem
    · exact List.mem_append_left _ (List.mem_singleton.mp hmem ▸ hframe)
  | lose hrequests hreplies =>
    refine ⟨t, Or.inl rfl, ⟨h.history, h.pending, fun env henv => h.requests env (hrequests henv), fun frame hmem => h.replies frame ?_⟩⟩
    exact (List.mem_append.mp hmem).elim (fun hmem => List.mem_append_left _ (hreplies hmem)) (List.mem_append_right _ ·)

end

/-- Every run is one of requests and replies. -/
theorem exists_refines {st : Router.State δ} {actions : List Action} (h : run c R actions (.start c st) = some s) :
    ∃ t : Abstract, Lib.Correlation.Reachable t ∧ Refines c R s t := by
  refine run_invariant (P := fun _ s => ∃ t : Abstract, Lib.Correlation.Reachable t ∧ Refines c R s t) ?_ ?_ h
  · exact ⟨.start, .start, refines_start st⟩
  · rintro _ _ s s' ⟨t, hreach, href⟩ hmove
    obtain ⟨t', hstep, href'⟩ := href.move hmove
    rcases hstep with rfl | hstep
    · exact ⟨_, hreach, href'⟩
    · exact ⟨t', hreach.step hstep, href'⟩

/-! ### The ids of the requests -/

theorem xor_le_add (a b : Nat) : a ^^^ b ≤ a + b := by
  induction a using Nat.strong_induction_on generalizing b with
  | _ a ih =>
  by_cases ha : a = 0
  · simp [ha]
  · have hhalf := ih (a / 2) (Nat.div_lt_self (Nat.pos_of_ne_zero ha) (by decide)) (b / 2)
    have hdiv := Nat.xor_div_two (a := a) (b := b)
    have hmod := Nat.xor_mod_two_eq (m := a) (n := b)
    omega

theorem msgIdOf_eq {now seq : Nat} (hnow : now < 2 ^ 62) (hseq : seq < 2 ^ 62) : msgIdOf now seq = (2 * now) ^^^ seq := by
  have hshift : now <<< 1 = 2 * now := by rw [Nat.shiftLeft_eq, pow_one, Nat.mul_comm]
  have hmask : (1 <<< 63 : Nat) - 1 = 2 ^ 63 - 1 := by decide
  rw [msgIdOf, hshift, hmask, Nat.and_two_pow_sub_one_of_lt_two_pow]
  exact Nat.xor_lt_two_pow (by omega) (by omega)

/-- Readings that are further apart than the numbers give ids of their own. -/
theorem msgId_ne {n a b s r : Nat} (hlt : b + n < a) (ha : a + n < 2 ^ 62) (hs : s ≤ n) (hr : r ≤ n) :
    UInt64.ofNat (msgIdOf a s) ≠ UInt64.ofNat (msgIdOf b r) := by
  rw [msgIdOf_eq (by omega) (by omega), msgIdOf_eq (by omega) (by omega)]
  intro heq
  have hle := xor_le_add (2 * b) r
  have hge := xor_le_add (2 * a ^^^ s) s
  rw [Nat.xor_xor_cancel_right] at hge
  have hlt' := Nat.xor_lt_two_pow (x := 2 * a) (y := s) (n := 63) (by omega) (by omega)
  have := congrArg UInt64.toNat heq
  rw [UInt64.toNat_ofNat', UInt64.toNat_ofNat', Nat.mod_eq_of_lt (by omega), Nat.mod_eq_of_lt (by omega)] at this
  omega

/-- The readings of the clock for the ids, poll by poll. -/
def readings (actions : List Action) : List Nat :=
  actions.filterMap fun
    | .poll r => some r.now
    | _ => none

/-- Between two polls, more nanoseconds pass than there are polls. -/
structure Spaced (actions : List Action) : Prop where
  apart : (readings actions).Pairwise fun a b => a + (readings actions).length < b
  small : ∀ a ∈ readings actions, a + (readings actions).length < 2 ^ 62

def sentIds (history : List (Event δ)) : List UInt64 :=
  history.filterMap fun
    | .sent env => some env.msgId
    | _ => none

theorem sentIds_served {ι : Type} (env : ControlEnvelopeV2) (st : Router.State δ) (history : List (Event δ)) :
    ∀ replies : List ι, sentIds (replies.map (fun _ => .served env st) ++ history) = sentIds history
  | [] => rfl
  | _ :: replies => sentIds_served env st history replies

/-- What the requests have been numbered with, the newest first. -/
structure Numbered (actions : List Action) (s : System δ) (sent : List (Nat × Nat)) : Prop where
  seq : s.worker.seq ≤ (readings actions).length
  ids : sentIds s.history = sent.map fun x => UInt64.ofNat (msgIdOf x.1 x.2)
  numbers : ∀ x ∈ sent, x.2 ≤ (readings actions).length
  times : (sent.map Prod.fst).reverse.Sublist (readings actions)

theorem readings_append (actions : List Action) : readings (actions ++ [a]) = readings actions ++ readings [a] := List.filterMap_append

/-- A move that sends nothing. -/
theorem Numbered.keep {actions : List Action} {sent : List (Nat × Nat)} (h : Numbered actions s sent) (hseq : s'.worker.seq ≤ s.worker.seq)
    (hids : sentIds s'.history = sentIds s.history) : Numbered (actions ++ [a]) s' sent := by
  have hle : (readings actions).length ≤ (readings (actions ++ [a])).length := by
    rw [readings_append, List.length_append]
    exact Nat.le_add_right ..
  refine ⟨(hseq.trans h.seq).trans hle, hids.trans h.ids, fun x hx => (h.numbers x hx).trans hle, h.times.trans ?_⟩
  rw [readings_append]
  exact List.sublist_append_left ..

theorem Numbered.move {actions : List Action} {sent : List (Nat × Nat)} (h : Numbered actions s sent) (hmove : Move c R s a s') :
    ∃ sent', Numbered (actions ++ [a]) s' sent' := by
  cases hmove with
  | quiet w outputs awaiting saving within => exact ⟨sent, h.keep within.seq rfl⟩
  | send r link outputs idle opened hinbox seq =>
    have hreadings : readings (actions ++ [.poll r]) = readings actions ++ [r.now] := readings_append actions
    have hseq : link.seq ≤ (readings (actions ++ [.poll r])).length := by
      rw [seq, hreadings, List.length_append]
      exact Nat.succ_le_succ h.seq
    refine ⟨(r.now, link.seq) :: sent, hseq, ?_, fun x hx => ?_, ?_⟩
    · rw [List.map_cons, ← h.ids]
      rfl
    · rcases List.mem_cons.mp hx with rfl | hx
      · exact hseq
      · refine (h.numbers x hx).trans ?_
        rw [hreadings, List.length_append]
        exact Nat.le_add_right ..
    · rw [List.map_cons, List.reverse_cons, hreadings]
      exact h.times.append (List.Sublist.refl _)
  | acquire w n awaiting hframe check hcontent done saving within => exact ⟨sent, h.keep within.seq rfl⟩
  | acquireUnsaved w n outputs awaiting hframe check hcontent settled => exact ⟨sent, h.keep settled.within.seq rfl⟩
  | queue w outputs saving settled => exact ⟨sent, h.keep settled.within.seq rfl⟩
  | skip w outputs saving settled => exact ⟨sent, h.keep settled.within.seq rfl⟩
  | consume => exact ⟨sent, h.keep (Nat.le_refl _) rfl⟩
  | serve i =>
    exact ⟨sent, h.keep (Nat.le_refl _) (sentIds_served _ _ _ _)⟩
  | serveOther => exact ⟨sent, h.keep (Nat.le_refl _) rfl⟩
  | arrive i hlink =>
    refine ⟨sent, h.keep ?_ rfl⟩
    rw [Worker.seq, Worker.seq, hlink]
    exact Nat.le_refl _
  | lose => exact ⟨sent, h.keep (Nat.le_refl _) rfl⟩

theorem Numbered.nodup {actions : List Action} {sent : List (Nat × Nat)} (h : Numbered actions s sent) (hspaced : Spaced actions) :
    (sentIds s.history).Nodup := by
  rw [h.ids, List.nodup_iff_pairwise_ne, List.pairwise_map]
  have hapart := hspaced.apart.sublist h.times
  rw [List.pairwise_reverse, List.pairwise_map] at hapart
  refine hapart.imp_of_mem fun {x y} hx hy hlt => msgId_ne hlt (hspaced.small x.1 ?_) (h.numbers x hx) (h.numbers y hy)
  exact h.times.subset (List.mem_reverse.mpr (List.mem_map_of_mem hx))

theorem exists_numbered {st : Router.State δ} {actions : List Action} (h : run c R actions (.start c st) = some s) :
    ∃ sent, Numbered actions s sent := by
  refine run_invariant (P := fun actions s => ∃ sent, Numbered actions s sent) ⟨[], ?_⟩ ?_ h
  · exact ⟨Nat.le_refl _, rfl, fun x hx => (nomatch hx), List.Sublist.refl _⟩
  · rintro actions a s s' ⟨sent, hsent⟩ hmove
    exact hsent.move hmove

/-! ### Frames and polls -/

theorem sentIds_correlated : ∀ history : List (Event δ),
    Lib.Correlation.sentIds (history.filterMap (Event.correlated c R)) = sentIds history
  | [] => rfl
  | e :: history => by
    have ih := sentIds_correlated history
    cases e with
    | sent env => exact congrArg (env.msgId :: ·) ih
    | served env st => exact ih
    | acquired rep yk => exact ih
    | queued yk => exact ih
    | skipped yk => exact ih

/-- What an event that is no request and no frame can be. -/
def Event.Between (e : Event δ) : Prop := (∀ env, e ≠ .sent env) ∧ ∀ rep yk, e ≠ .acquired rep yk

theorem between_of_correlated {e : Event δ} (h : ∀ e' ∈ Event.correlated c R e, e'.Served) : e.Between := by
  refine ⟨?_, ?_⟩
  · rintro env rfl
    exact h _ rfl
  · rintro rep yk rfl
    exact h _ rfl

/-- The poll in which a frame is acquired. -/
theorem exists_poll {older : List (Event δ)} {id : UInt64} {rep : ControlEnvelopeV2}
    (h : Lib.Correlation.Answers (older.filterMap (Event.correlated c R)) id rep) :
    ∃ mid env before st, older = mid ++ .sent env :: before ∧ (∀ e ∈ mid, e.Between) ∧ .served env st ∈ mid ∧ rep = answerOf c R env st := by
  obtain ⟨mid, req, before, heq, hmid, hserved⟩ := h
  obtain ⟨first, rest, rfl, hfirst, hrest⟩ := List.filterMap_eq_append_iff.mp heq
  obtain ⟨second, e, before', rfl, hsecond, he, -⟩ := List.filterMap_eq_cons_iff.mp hrest
  -- the request
  cases e with
  | sent env =>
    cases he
    rw [← hfirst] at hserved
    obtain ⟨e, hmem, he⟩ := List.mem_filterMap.mp hserved
    cases e with
    | served env' st =>
      simp only [Event.correlated, Option.some.injEq, Lib.Correlation.Event.served.injEq] at he
      obtain ⟨-, rfl, rfl⟩ := he
      refine ⟨first ++ second, env', before', st, by rw [List.append_assoc], fun e hmem => ?_, List.mem_append_left _ hmem, rfl⟩
      refine between_of_correlated (c := c) (R := R) fun e' he' => ?_
      rcases List.mem_append.mp hmem with hmem | hmem
      · exact hmid e' (hfirst ▸ List.mem_filterMap.mpr ⟨e, hmem, he'⟩)
      · exact (nomatch (hsecond e hmem).symm.trans he')
    | _ => cases he
  | _ => cases he

theorem content_of_acquired {st : Router.State δ} {actions : List Action} (h : run c R actions (.start c st) = some s) {rep : ControlEnvelopeV2}
    {yk : Frame} (hmem : .acquired rep yk ∈ s.history) : content rep = .ok (.frame yk) := by
  refine run_invariant (P := fun _ (s : System δ) => ∀ rep yk, .acquired rep yk ∈ s.history → content rep = .ok (.frame yk)) ?_ ?_ h rep yk hmem
  · rintro rep yk hmem
    cases hmem
  · intro _ a s s' ih hmove rep yk hmem
    cases hmove with
    | quiet => exact ih rep yk hmem
    | send r =>
      cases hmem with
      | tail _ hmem => exact ih rep yk hmem
    | acquire w n awaiting hframe check hcontent =>
      cases hmem with
      | head => exact hcontent
      | tail _ hmem => exact ih rep yk hmem
    | acquireUnsaved w n outputs awaiting hframe check hcontent =>
      cases hmem with
      | tail _ hmem =>
        cases hmem with
        | head => exact hcontent
        | tail _ hmem => exact ih rep yk hmem
    | queue =>
      cases hmem with
      | tail _ hmem => exact ih rep yk hmem
    | skip =>
      cases hmem with
      | tail _ hmem => exact ih rep yk hmem
    | consume => exact ih rep yk hmem
    | serve i =>
      rcases List.mem_append.mp hmem with hmem | hmem
      · obtain ⟨_, -, h⟩ := List.mem_map.mp hmem
        cases h
      · exact ih rep yk hmem
    | serveOther => exact ih rep yk hmem
    | arrive => exact ih rep yk hmem
    | lose => exact ih rep yk hmem

/-- A frame is what the server's handler has made of the request of the frame's own poll, after that request was sent and before
    the frame was acquired: no frame comes from a request that was given up, and none comes twice. -/
theorem frame_answers_poll (c : Config) (R : Router δ) (st : Router.State δ) (actions : List Action) (hspaced : Spaced actions)
    (hrun : run c R actions (.start c st) = some s) {newer older : List (Event δ)} {rep : ControlEnvelopeV2} {yk : Frame}
    (hacquired : s.history = newer ++ .acquired rep yk :: older) :
    ∃ mid env before st', older = mid ++ .sent env :: before ∧ (∀ e ∈ mid, e.Between) ∧ .served env st' ∈ mid ∧
      rep = answerOf c R env st' ∧ rep.payload = R.outputOf st' env ∧ content rep = .ok (.frame yk) := by
  obtain ⟨t, hreach, href⟩ := exists_refines hrun
  obtain ⟨sent, hnumbered⟩ := exists_numbered hrun
  have hsound : Lib.Correlation.Sound t.history := by
    refine hreach.sound ?_
    rw [href.history, sentIds_correlated]
    exact hnumbered.nodup hspaced
  have hhistory : t.history = newer.filterMap (Event.correlated c R) ++ .accepted rep.correlId rep :: older.filterMap (Event.correlated c R) := by
    rw [href.history, hacquired, List.filterMap_append, List.filterMap_cons]
    rfl
  obtain ⟨mid, env, before, st', holder, hmid, hserved, hrep⟩ := exists_poll (hsound _ _ _ _ hhistory)
  refine ⟨mid, env, before, st', holder, hmid, hserved, hrep, ?_, content_of_acquired hrun ?_⟩
  · rw [hrep, payload_answerOf]
  · rw [hacquired]
    exact List.mem_append_right _ (List.mem_cons_self ..)

/-- A server whose dumps have one sample of channel 7. -/
def sampler : Router Unit where
  handlers type :=
    if type = MessageTypeV2.mt2DumpSpybufferReq then
      some fun _ device => (.ok [8, 1, 18, 1, 7, 24, 1, 32, 1, 50, 1, 5], device)
    else none
  dump _ _ := (⟨[], .returned⟩, ())
  clock _ := 0

def oneFrame : Config where
  endpoint := "tcp://127.0.0.1:9876"
  identity := [0x6f]
  route := ""
  pid := 1
  payload := []
  maxWaveforms := 1
  saves := true
  queueFrames := 512

def firstPoll : List Action := [.start, .poll ⟨1, 1, 1⟩, .serve 0, .arrive 0, .receive none]

theorem frame_answers_poll_first : ∃ s rep older env st', run oneFrame sampler firstPoll (.start oneFrame ⟨(), {}⟩) = some s ∧
    s.history = .acquired rep [[5]] :: older ∧ .served env st' ∈ older ∧ rep.payload = sampler.outputOf st' env := by
  obtain ⟨s, rep, older, hrun, hhistory⟩ : ∃ s rep older, run oneFrame sampler firstPoll (.start oneFrame ⟨(), {}⟩) = some s ∧
      s.history = [] ++ .acquired rep [[5]] :: older := ⟨_, _, _, rfl, rfl⟩
  have hspaced : Spaced firstPoll := ⟨by simp [readings, firstPoll], by simp [readings, firstPoll]⟩
  obtain ⟨mid, env, before, st', rfl, -, hserved, -, hpayload, -⟩ :=
    frame_answers_poll oneFrame sampler ⟨(), {}⟩ firstPoll hspaced hrun hhistory
  exact ⟨s, rep, _, env, st', hrun, hhistory, List.mem_append_left _ hserved, hpayload⟩

/-! ### Frames that are shown and saved -/

/-- The frames that have been acquired, and those that have been put into the queue, the oldest first. -/
def acquiredFrames (history : List (Event δ)) : List Frame :=
  (history.filterMap fun
    | .acquired _ yk => some yk
    | _ => none).reverse

def queuedFrames (history : List (Event δ)) : List Frame :=
  (history.filterMap fun
    | .queued yk => some yk
    | _ => none).reverse

section
variable (history : List (Event δ))

@[simp] theorem acquiredFrames_sent (env : ControlEnvelopeV2) : acquiredFrames (.sent env :: history) = acquiredFrames history := rfl
@[simp] theorem acquiredFrames_queued (yk : Frame) : acquiredFrames (.queued yk :: history) = acquiredFrames history := rfl
@[simp] theorem acquiredFrames_skipped (yk : Frame) : acquiredFrames (.skipped yk :: history) = acquiredFrames history := rfl
@[simp] theorem queuedFrames_sent (env : ControlEnvelopeV2) : queuedFrames (.sent env :: history) = queuedFrames history := rfl
@[simp] theorem queuedFrames_skipped (yk : Frame) : queuedFrames (.skipped yk :: history) = queuedFrames history := rfl
@[simp] theorem queuedFrames_acquired (rep : ControlEnvelopeV2) (yk : Frame) :
    queuedFrames (.acquired rep yk :: history) = queuedFrames history := rfl

@[simp] theorem acquiredFrames_acquired (rep : ControlEnvelopeV2) (yk : Frame) :
    acquiredFrames (.acquired rep yk :: history) = acquiredFrames history ++ [yk] := List.reverse_cons

@[simp] theorem queuedFrames_queued (yk : Frame) : queuedFrames (.queued yk :: history) = queuedFrames history ++ [yk] := List.reverse_cons

@[simp] theorem acquiredFrames_served {ι : Type} (env : ControlEnvelopeV2) (st : Router.State δ) : ∀ replies : List ι,
    acquiredFrames (replies.map (fun _ => .served env st) ++ history) = acquiredFrames history
  | [] => rfl
  | _ :: replies => acquiredFrames_served env st replies

@[simp] theorem queuedFrames_served {ι : Type} (env : ControlEnvelopeV2) (st : Router.State δ) : ∀ replies : List ι,
    queuedFrames (replies.map (fun _ => .served env st) ++ history) = queuedFrames history
  | [] => rfl
  | _ :: replies => queuedFrames_served env st replies

end

/-- The plots are the frames, and the frames of the queue come in their order. -/
structure Kept (c : Config) (s : System δ) : Prop where
  idle : s.worker.awaiting = none ∨ s.worker.saving = none
  plots : plots s.outputs = acquiredFrames s.history
  queue : ∃ written, queuedFrames s.history = written ++ s.queue
  room : s.queue.length ≤ c.capacity
  saved : (queuedFrames s.history ++ s.worker.saving.toList).Sublist (acquiredFrames s.history)

theorem Kept.move (h : Kept c s) (hmove : Move c R s a s') : Kept c s' := by
  have hidle := hmove.idle h.idle
  have hqueued : (queuedFrames s.history).Sublist (acquiredFrames s.history) := (List.sublist_append_left ..).trans h.saved
  have settled {w : Worker} (hw : w.saving = none) : (queuedFrames s.history ++ w.saving.toList).Sublist (acquiredFrames s.history) := by
    rwa [hw, Option.toList_none, List.append_nil]
  cases hmove with
  | quiet w outputs awaiting saving within saveQueue framesAcquired hplots =>
    have hsaved := h.saved
    rw [← saving] at hsaved
    refine ⟨hidle, ?_, h.queue, h.room, hsaved⟩
    rw [System.becomes, plots_append, hplots, List.append_nil, h.plots]
  | send r link outputs idle opened inbox seq hplots =>
    refine ⟨hidle, ?_, h.queue, h.room, h.saved⟩
    rw [plots_append, hplots, List.append_nil, h.plots, acquiredFrames_sent]
  | @acquire _ env rep frame yk w n awaiting hframe check hcontent done saving =>
    refine ⟨hidle, ?_, h.queue, h.room, ?_⟩
    · rw [plots_append, h.plots, acquiredFrames_acquired]
      rfl
    · rw [saving, queuedFrames_acquired, acquiredFrames_acquired]
      exact hqueued.append (List.Sublist.refl _)
  | @acquireUnsaved _ env rep frame yk w n outputs awaiting hframe check hcontent hsettled saveQueue hplots =>
    refine ⟨hidle, ?_, h.queue, h.room, ?_⟩
    · rw [plots_append, h.plots, acquiredFrames_skipped, acquiredFrames_acquired]
      exact congrArg (_ ++ _ :: ·) hplots
    · rw [queuedFrames_skipped, queuedFrames_acquired, acquiredFrames_skipped, acquiredFrames_acquired]
      exact (settled hsettled.saving).trans (List.sublist_append_left ..)
  | @queue yk w outputs saving hsettled saveQueue hplots room =>
    obtain ⟨written, hwritten⟩ := h.queue
    have hsaved := h.saved
    rw [saving] at hsaved
    refine ⟨hidle, ?_, ⟨written, ?_⟩, ?_, ?_⟩
    · rw [plots_append, hplots, List.append_nil, h.plots, acquiredFrames_queued]
    · rw [queuedFrames_queued, hwritten, List.append_assoc]
    · rw [List.length_append]
      exact room
    · rw [hsettled.saving, queuedFrames_queued, acquiredFrames_queued, Option.toList_none, List.append_nil]
      exact hsaved
  | skip w outputs saving hsettled hplots =>
    refine ⟨hidle, ?_, h.queue, h.room, settled hsettled.saving⟩
    rw [plots_append, hplots, List.append_nil, h.plots, acquiredFrames_skipped]
  | consume yk rest hqueue =>
    obtain ⟨written, hwritten⟩ := h.queue
    refine ⟨hidle, h.plots, ⟨written ++ [yk], ?_⟩, ?_, h.saved⟩
    · rw [hwritten, hqueue, List.append_assoc, List.singleton_append]
    · have := h.room
      rw [hqueue, List.length_cons] at this
      exact Nat.le_of_succ_le this
  | serve i =>
    refine ⟨hidle, ?_, ?_, h.room, ?_⟩
    · rw [acquiredFrames_served]
      exact h.plots
    · rw [queuedFrames_served]
      exact h.queue
    · rw [acquiredFrames_served, queuedFrames_served]
      exact h.saved
  | serveOther => exact ⟨hidle, h.plots, h.queue, h.room, h.saved⟩
  | arrive => exact ⟨hidle, h.plots, h.queue, h.room, h.saved⟩
  | lose => exact ⟨hidle, h.plots, h.queue, h.room, h.saved⟩

/-- How often the acquisition is started. -/
def starts (actions : List Action) : Nat :=
  actions.countP fun
    | .start => true
    | _ => false

theorem starts_append (actions : List Action) : starts (actions ++ [a]) = starts actions + starts [a] := List.countP_append ..

/-- No more frames are acquired than the limit, for one start. -/
structure Bounded (c : Config) (actions : List Action) (s : System δ) : Prop where
  started : s.worker.awaiting.isSome ∨ s.worker.saving.isSome ∨ s.worker.Open → 1 ≤ starts actions
  counted : (acquiredFrames s.history).length ≤ s.worker.framesAcquired
  below : (acquiredFrames s.history).length < c.limit + starts actions
  next : s.worker.awaiting.isSome ∨ s.worker.Open ∧ s.worker.saving = none → (acquiredFrames s.history).length + 1 < c.limit + starts actions

/-- A move after which a poll can only come where one could come before. -/
theorem Bounded.keep {actions : List Action} (h : Bounded c actions s) (hframes : (acquiredFrames s'.history).length = (acquiredFrames s.history).length)
    (hcount : s.worker.framesAcquired ≤ s'.worker.framesAcquired)
    (hstarted : s'.worker.awaiting.isSome ∨ s'.worker.saving.isSome ∨ s'.worker.Open →
      s.worker.awaiting.isSome ∨ s.worker.saving.isSome ∨ s.worker.Open)
    (hnext : s'.worker.awaiting.isSome ∨ s'.worker.Open ∧ s'.worker.saving = none →
      s.worker.awaiting.isSome ∨ s.worker.Open ∧ s.worker.saving = none) : Bounded c (actions ++ [a]) s' := by
  have hle : starts actions ≤ starts (actions ++ [a]) := by
    rw [starts_append]
    exact Nat.le_add_right ..
  have hlimit := Nat.add_le_add_left hle c.limit
  refine ⟨fun hgoes => (h.started (hstarted hgoes)).trans hle, ?_, ?_, fun hgoes => ?_⟩
  · rw [hframes]
    exact h.counted.trans hcount
  · rw [hframes]
    exact h.below.trans_le hlimit
  · rw [hframes]
    exact (h.next (hnext hgoes)).trans_le hlimit

/-- A frame has been settled. -/
theorem bounded_of_settled {actions : List Action} {w : Worker} (hsettled : Settled c w s'.worker) (hstarted : 1 ≤ starts actions)
    (hlimit : 0 < c.limit) (hcounted : (acquiredFrames s'.history).length ≤ w.framesAcquired)
    (hbelow : (acquiredFrames s'.history).length < c.limit + starts actions) : Bounded c (actions ++ [a]) s' := by
  have hle : starts actions ≤ starts (actions ++ [a]) := by
    rw [starts_append]
    exact Nat.le_add_right ..
  refine ⟨fun _ => hstarted.trans hle, ?_, by omega, ?_⟩
  · rw [hsettled.framesAcquired]
    exact hcounted
  · rintro (hsome | ⟨hopen, -⟩)
    · rw [hsettled.awaiting] at hsome
      cases hsome
    · have hlt := (hsettled.opened hopen).2 hlimit
      omega

theorem Bounded.quiet {actions : List Action} (h : Bounded c actions s) {w : Worker} (outputs : List Output)
    (awaiting : w.awaiting = none ∨ w.awaiting = s.worker.awaiting) (saving : w.saving = s.worker.saving)
    (framesAcquired : s.worker.framesAcquired ≤ w.framesAcquired)
    (opened : w.Open → w.saving = none → s.worker.Open ∨ s.worker.awaiting.isSome ∨ a = .start) :
    Bounded c (actions ++ [a]) (s.becomes (w, outputs)) := by
  by_cases ha : a = .start
  · have hstarts : starts (actions ++ [a]) = starts actions + 1 := by
      rw [ha]
      exact starts_append actions
    have hbelow := h.below
    refine ⟨fun _ => ?_, h.counted.trans framesAcquired, ?_, fun _ => ?_⟩ <;> rw [hstarts]
    · exact Nat.le_add_left ..
    · exact hbelow.trans (by omega)
    · show (acquiredFrames s.history).length + 1 < _
      omega
  · have hawaiting (hsome : w.awaiting.isSome) : s.worker.awaiting.isSome := by
      rcases awaiting with hnone | hsame
      · rw [hnone] at hsome
        cases hsome
      · rwa [← hsame]
    have hnext (hopen : w.Open) (hnone : w.saving = none) :
        s.worker.awaiting.isSome ∨ s.worker.Open ∧ s.worker.saving = none := by
      rcases opened hopen hnone with hopen | hsome | heq
      · exact Or.inr ⟨hopen, saving.symm.trans hnone⟩
      · exact Or.inl hsome
      · exact absurd heq ha
    refine h.keep rfl framesAcquired ?_ ?_
    · rintro (hsome | hsome | hopen)
      · exact Or.inl (hawaiting hsome)
      · exact Or.inr (Or.inl (saving ▸ hsome))
      · cases hsaving : w.saving with
        | none => exact (hnext hopen hsaving).imp_right fun h => Or.inr h.1
        | some yk => exact Or.inr (Or.inl (by rw [← saving, hsaving]; rfl))
    · rintro (hsome | ⟨hopen, hnone⟩)
      · exact Or.inl (hawaiting hsome)
      · exact hnext hopen hnone

theorem Bounded.move {actions : List Action} (h : Bounded c actions s) (hlimit : 0 < c.limit) (hmove : Move c R s a s') :
    Bounded c (actions ++ [a]) s' := by
  have hle : starts actions ≤ starts (actions ++ [a]) := by
    rw [starts_append]
    exact Nat.le_add_right ..
  -- a frame that is acquired while it may be
  have acquired {env : ControlEnvelopeV2} (rep : ControlEnvelopeV2) (yk : Frame) (hsome : s.worker.awaiting = some env) : 1 ≤ starts actions ∧
      (acquiredFrames (.acquired rep yk :: s.history)).length ≤ s.worker.framesAcquired + 1 ∧
      (acquiredFrames (.acquired rep yk :: s.history)).length < c.limit + starts actions := by
    have hsome' : s.worker.awaiting.isSome := by rw [hsome]; rfl
    rw [acquiredFrames_acquired, List.length_append]
    exact ⟨h.started (Or.inl hsome'), Nat.succ_le_succ h.counted, h.next (Or.inl hsome')⟩
  cases hmove with
  | quiet w outputs awaiting saving within saveQueue framesAcquired hplots opened =>
    exact h.quiet outputs awaiting saving framesAcquired opened
  | send r link outputs idle opened inbox seq hplots =>
    exact h.keep rfl (Nat.le_refl _) (fun _ => Or.inr (Or.inr opened)) fun _ => Or.inr ⟨opened, idle.2⟩
  | @acquire _ env rep frame yk w n awaiting hframe check hcontent done saving within saveQueue framesAcquired =>
    obtain ⟨hstarted, hcounted, hbelow⟩ := acquired rep yk awaiting
    refine ⟨fun _ => hstarted.trans hle, hcounted.trans framesAcquired.ge, hbelow.trans_le (Nat.add_le_add_left hle _), ?_⟩
    rintro (hsome | ⟨-, hnone⟩)
    · rw [show w.awaiting = none from done] at hsome
      cases hsome
    · cases saving.symm.trans hnone
  | @acquireUnsaved _ env rep frame yk w n outputs awaiting hframe check hcontent hsettled =>
    obtain ⟨hstarted, hcounted, hbelow⟩ := acquired rep yk awaiting
    exact bounded_of_settled hsettled hstarted hlimit hcounted hbelow
  | queue w outputs saving hsettled =>
    exact bounded_of_settled hsettled (h.started (Or.inr (Or.inl (by rw [saving]; rfl)))) hlimit h.counted h.below
  | skip w outputs saving hsettled =>
    exact bounded_of_settled hsettled (h.started (Or.inr (Or.inl (by rw [saving]; rfl)))) hlimit h.counted h.below
  | consume => exact h.keep rfl (Nat.le_refl _) id id
  | serve i => exact h.keep (by rw [acquiredFrames_served]) (Nat.le_refl _) id id
  | serveOther => exact h.keep rfl (Nat.le_refl _) id id
  | arrive => exact h.keep rfl (Nat.le_refl _) id id
  | lose => exact h.keep rfl (Nat.le_refl _) id id

/-- Every frame is in the queue or about to be, as long as nothing stops the acquisition or the disk writer. -/
structure Complete (s : System δ) : Prop where
  frames : acquiredFrames s.history = queuedFrames s.history ++ s.worker.saving.toList
  saveQueue : s.worker.saveQueue = true
  stopped : s.worker.stopEvt = true → s.worker.awaiting = none ∧ s.worker.saving = none

theorem Complete.move (h : Complete s) (hkept : Kept c s) (ha : ¬a.Disturbs) (hmove : Move c R s a s') : Complete s' := by
  cases hmove with
  | quiet w outputs awaiting saving within saveQueue framesAcquired hplots opened stopped =>
    have hframes := h.frames
    rw [← saving] at hframes
    refine ⟨hframes, saveQueue.trans h.saveQueue, fun hstop => ?_⟩
    obtain ⟨hawaiting, hsaving⟩ := h.stopped ((stopped hstop).resolve_right ha)
    exact ⟨awaiting.elim id (·.trans hawaiting), saving.trans hsaving⟩
  | send r link outputs idle opened => exact ⟨h.frames, h.saveQueue, fun hstop => nomatch hstop.symm.trans opened.1⟩
  | @acquire _ env rep frame yk w n awaiting hframe check hcontent done saving within saveQueue framesAcquired stopEvt =>
    have hsaving : s.worker.saving = none := hkept.idle.resolve_left fun hnone => by
      rw [hnone] at awaiting
      cases awaiting
    have hframes := h.frames
    rw [hsaving, Option.toList_none, List.append_nil] at hframes
    refine ⟨?_, saveQueue.2, fun hstop => ?_⟩
    · rw [acquiredFrames_acquired, queuedFrames_acquired, saving, hframes]
      rfl
    · rw [stopEvt] at hstop
      rw [(h.stopped hstop).1] at awaiting
      cases awaiting
  | acquireUnsaved w n outputs awaiting hframe check hcontent hsettled saveQueue => exact nomatch h.saveQueue.symm.trans saveQueue.1
  | @queue yk w outputs saving hsettled saveQueue =>
    have hframes := h.frames
    rw [saving] at hframes
    refine ⟨?_, saveQueue.trans h.saveQueue, fun _ => ⟨hsettled.awaiting, hsettled.saving⟩⟩
    rw [acquiredFrames_queued, queuedFrames_queued, hsettled.saving, Option.toList_none, List.append_nil]
    exact hframes
  | skip w outputs saving hsettled hplots disturbed =>
    rw [(h.stopped (disturbed.resolve_left ha)).2] at saving
    cases saving
  | consume => exact ⟨h.frames, h.saveQueue, h.stopped⟩
  | serve i =>
    refine ⟨?_, h.saveQueue, h.stopped⟩
    rw [acquiredFrames_served, queuedFrames_served]
    exact h.frames
  | serveOther => exact ⟨h.frames, h.saveQueue, h.stopped⟩
  | arrive => exact ⟨h.frames, h.saveQueue, h.stopped⟩
  | lose => exact ⟨h.frames, h.saveQueue, h.stopped⟩

/-- What is shown are the frames that have been acquired, one after the other, and the queue gets them in this order, never more
    than it has room for. A limit holds for every start of the acquisition. Where nothing stops the acquisition or the disk
    writer, no frame is left out. -/
theorem frames_shown_and_queued (c : Config) (R : Router δ) (st : Router.State δ) (actions : List Action)
    (hrun : run c R actions (.start c st) = some s) :
    plots s.outputs = acquiredFrames s.history ∧
    (∃ written, queuedFrames s.history = written ++ s.queue) ∧ s.queue.length ≤ c.capacity ∧
    (queuedFrames s.history ++ s.worker.saving.toList).Sublist (acquiredFrames s.history) ∧
    (0 < c.limit → (acquiredFrames s.history).length < c.limit + starts actions) ∧
    (c.saves = true → (∀ a ∈ actions, ¬a.Disturbs) →
      acquiredFrames s.history = queuedFrames s.history ++ s.worker.saving.toList) := by
  have hall := run_invariant (R := R) (P := fun actions (s : System δ) => Kept c s ∧ (0 < c.limit → Bounded c actions s) ∧
    (c.saves = true → (∀ a ∈ actions, ¬a.Disturbs) → Complete s)) ?_ ?_ hrun
  · obtain ⟨hkept, hbounded, hcomplete⟩ := hall
    exact ⟨hkept.plots, hkept.queue, hkept.room, hkept.saved, fun hlimit => (hbounded hlimit).below,
      fun hsaves hactions => (hcomplete hsaves hactions).frames⟩
  · refine ⟨⟨Or.inl rfl, rfl, ⟨[], rfl⟩, Nat.zero_le _, List.Sublist.refl _⟩, fun hlimit => ⟨?_, Nat.le_refl _, hlimit, ?_⟩,
      fun hsaves _ => ⟨rfl, hsaves, fun hstop => nomatch hstop⟩⟩
    · rintro (h | h | h)
      · cases h
      · cases h
      · cases h.2
    · rintro (h | h)
      · cases h
      · cases h.1.2
  · rintro actions a s s' ⟨hkept, hbounded, hcomplete⟩ hmove
    refine ⟨hkept.move hmove, fun hlimit => (hbounded hlimit).move hlimit hmove, fun hsaves hactions => ?_⟩
    have hearlier := fun b hb => hactions b (List.mem_append_left _ hb)
    exact (hcomplete hsaves hearlier).move hkept (hactions a (List.mem_append_right _ (List.mem_singleton_self a))) hmove

theorem frames_shown_and_queued_first : ∃ s, run oneFrame sampler firstPoll (.start oneFrame ⟨(), {}⟩) = some s ∧
    s.worker.saving = some [[5]] ∧ acquiredFrames s.history = queuedFrames s.history ++ [[[5]]] ∧ (acquiredFrames s.history).length < 2 := by
  obtain ⟨s, hrun, hsaving⟩ : ∃ s, run oneFrame sampler firstPoll (.start oneFrame ⟨(), {}⟩) = some s ∧ s.worker.saving = some [[5]] :=
    ⟨_, rfl, rfl⟩
  obtain ⟨-, -, -, -, hbound, hcomplete⟩ := frames_shown_and_queued oneFrame sampler ⟨(), {}⟩ firstPoll hrun
  have hframes := hcomplete rfl (by simp [firstPoll, Action.Disturbs])
  rw [hsaving] at hframes
  exact ⟨s, hrun, hsaving, hframes, hbound (by decide)⟩

/-! ### The next frame -/

theorem run_cons_of_step {actions : List Action} (h : step c R a s = some s') : run c R (a :: actions) s = run c R actions s' := by
  rw [run, List.foldlM_cons, h]
  rfl

theorem checkReply_answerOf {env : ControlEnvelopeV2} {st : Router.State δ} (hreply : (writeFields (answerOf c R env st).fields).length ≤ intMax) :
    checkReply env (serializeAsString (answerOf c R env st).fields) = .ok (answerOf c R env st) := by
  have hparse := ControlEnvelopeV2.parse_serialize hreply
  rw [parseFromArray_of_le (by rw [serializeAsString_of_le hreply]; exact hreply)] at hparse
  have hdir : (answerOf c R env st).dir = Direction.dirResponse := (R.serveRequest_answers st c.identity env).dir
  simp only [checkReply, hparse]
  rw [if_neg (not_not.mpr hdir), if_neg (not_not.mpr (correlId_answerOf env st))]

/-- A reply with a frame shows it. -/
theorem plots_receiveFrame {env rep : ControlEnvelopeV2} (link : Link) {frame : Bytes} (rest : List Bytes) {yk : Frame}
    (hsaving : s.worker.saving = none) (hcheck : checkReply env frame = .ok rep) (hcontent : content rep = .ok (.frame yk)) :
    plots (receiveFrame c s env link frame rest none).outputs = plots s.outputs ++ [yk] := by
  unfold receiveFrame
  simp only [hcheck, hcontent]
  split
  · simp only [System.becomes, List.append_nil, plots_append]
    rfl
  · obtain ⟨-, hplots, -⟩ := settled_finishIfDone (c := c) (w := { s.worker with
      awaiting := none, link := some { link with inbox := rest }, framesAcquired := s.worker.framesAcquired + 1 }) rfl hsaving
    simp only [System.becomes, plots_append, hplots, List.append_nil]
    rfl

/-- Once the link is closed, a poll gets the answer of the server. -/
theorem exists_frame_of_closed {st : Router.State δ} (hlink : s.worker.link = none) (hawaiting : s.worker.awaiting = none)
    (hsaving : s.worker.saving = none) (hopen : s.worker.Open) (hserver : s.server = some st) (r : Readings) {env : ControlEnvelopeV2}
    (henv : env = envelopeOf c { rand := r.made &&& 0xFFFFFFFF, seq := 1 } r)
    (hrequest : (writeFields env.fields).length ≤ R.maxEnvelopeBytes) (hfits : (writeFields env.fields).length ≤ intMax)
    (hreply : (writeFields (answerOf c R env st).fields).length ≤ intMax) {yk : Frame}
    (hcontent : content (answerOf c R env st) = .ok (.frame yk)) :
    ∃ s', run c R [.poll r, .serve s.requests.length, .arrive s.replies.length, .receive none] s = some s' ∧
      plots s'.outputs = plots s.outputs ++ [yk] := by
  let link : Link := { rand := r.made &&& 0xFFFFFFFF, seq := 1 }
  have hasks : Asks env := by
    rw [henv] at hfits ⊢
    exact ⟨rfl, rfl, rfl, hfits⟩
  -- the request is sent
  obtain ⟨s₁, hpoll, hworker, hrequests, hreplies, hserver₁, hplots₁⟩ : ∃ s₁, step c R (.poll r) s = some s₁ ∧
      s₁.worker = { s.worker with link := some link, awaiting := some env } ∧ s₁.requests = s.requests ++ [env] ∧
      s₁.replies = s.replies ∧ s₁.server = s.server ∧ plots s₁.outputs = plots s.outputs := by
    have hidle : s.worker.idle = true := idle_iff.mpr ⟨hawaiting, hsaving⟩
    rw [henv] at hfits ⊢
    simp only [step, hidle, hopen.1, hopen.2, hlink, ensureLink, Bool.not_false, Bool.and_true, ↓reduceIte]
    rw [if_pos hfits]
    exact ⟨_, rfl, rfl, rfl, rfl, rfl, by rw [plots_append]; exact List.append_nil _⟩
  -- the server answers it
  obtain ⟨s₂, hserve, hworker₂, hreplies₂, hplots₂⟩ : ∃ s₂, step c R (.serve s.requests.length) s₁ = some s₂ ∧ s₂.worker = s₁.worker ∧
      s₂.replies = s.replies ++ [serializeAsString (answerOf c R env st).fields] ∧ plots s₂.outputs = plots s₁.outputs := by
    have hnew : s₁.requests[s.requests.length]? = some env := by rw [hrequests, List.getElem?_concat_length]
    have hone : R.serveMessage st [c.identity, writeFields env.fields] =
        ([(R.serveRequest st c.identity env).1], some (R.serveRequest st c.identity env).2) := by
      rw [Router.serveMessage_of_carries (hasks.carries hrequest), if_neg (by rw [hasks.type]; decide)]
    simp only [step, hserver₁, hserver, hnew, hone, hreplies]
    exact ⟨_, rfl, rfl, rfl, rfl⟩
  -- the answer comes in
  obtain ⟨s₃, harrive, hworker₃, hplots₃⟩ : ∃ s₃, step c R (.arrive s.replies.length) s₂ = some s₃ ∧
      s₃.worker = { s.worker with
        link := some { link with inbox := [serializeAsString (answerOf c R env st).fields] }, awaiting := some env } ∧
      plots s₃.outputs = plots s₂.outputs := by
    simp only [step, hworker₂, hworker, hreplies₂, List.getElem?_concat_length]
    exact ⟨_, rfl, rfl, rfl⟩
  have hreceive : step c R (.receive none) s₃ = some (receiveFrame c s₃ env
      { link with inbox := [serializeAsString (answerOf c R env st).fields] } (serializeAsString (answerOf c R env st).fields) [] none) := by
    simp only [step, hworker₃]
  refine ⟨_, (run_cons_of_step hpoll).trans ((run_cons_of_step hserve).trans ((run_cons_of_step harrive).trans (run_cons_of_step hreceive))), ?_⟩
  · rw [plots_receiveFrame _ _ (by rw [hworker₃]; exact hsaving) (checkReply_answerOf hreply) hcontent, hplots₃, hplots₂, hplots₁]

/-- Whatever has been given up or is late, the next frame is within reach: a time-out closes the link, and a poll over a new one is
    answered. -/
theorem exists_next_frame (c : Config) (R : Router δ) (st : Router.State δ) (actions : List Action)
    (hrun : run c R actions (.start c st) = some s) (hopen : s.worker.Open) (hsaving : s.worker.saving = none) {st' : Router.State δ}
    (hserver : s.server = some st') (r : Readings) {env : ControlEnvelopeV2}
    (henv : env = envelopeOf c { rand := r.made &&& 0xFFFFFFFF, seq := 1 } r)
    (hrequest : (writeFields env.fields).length ≤ R.maxEnvelopeBytes) (hfits : (writeFields env.fields).length ≤ intMax)
    (hreply : (writeFields (answerOf c R env st').fields).length ≤ intMax) {yk : Frame}
    (hcontent : content (answerOf c R env st') = .ok (.frame yk)) :
    ∃ next s', run c R (actions ++ next) (.start c st) = some s' ∧ next.length ≤ 5 ∧ plots s'.outputs = plots s.outputs ++ [yk] := by
  -- the time-out
  obtain ⟨a, s₁, hstep, hlink, hawaiting, hsaving₁, hopen₁, hserver₁, hplots₁⟩ : ∃ a s₁, step c R a s = some s₁ ∧ s₁.worker.link = none ∧
      s₁.worker.awaiting = none ∧ s₁.worker.saving = none ∧ s₁.worker.Open ∧ s₁.server = s.server ∧ plots s₁.outputs = plots s.outputs := by
    cases hwait : s.worker.awaiting with
    | none =>
      have hidle : s.worker.idle = true := idle_iff.mpr ⟨hwait, hsaving⟩
      refine ⟨.sendTimeout r, ?_⟩
      simp only [step, hidle, hopen.1, hopen.2, Bool.not_false, Bool.and_true, ↓reduceIte]
      refine ⟨_, rfl, rfl, rfl, hsaving, ⟨rfl, rfl⟩, rfl, ?_⟩
      obtain ⟨-, -, hplots⟩ := ensureLink_spec (c := c) s.worker r
      rw [becomes_outputs, System.becomes, plots_append, plots_append, hplots]
      exact List.append_nil _
    | some env =>
      refine ⟨.timedOut, ?_⟩
      simp only [step, hwait, Option.isSome_some, ↓reduceIte]
      refine ⟨_, rfl, rfl, rfl, hsaving, hopen, rfl, ?_⟩
      rw [System.becomes, plots_append]
      exact List.append_nil _
  obtain ⟨s', hnext, hplots⟩ := exists_frame_of_closed hlink hawaiting hsaving₁ hopen₁ (hserver₁.trans hserver) r henv hrequest hfits hreply hcontent
  refine ⟨[a, .poll r, .serve s₁.requests.length, .arrive s₁.replies.length, .receive none], s', ?_, Nat.le_refl _, by rw [hplots, hplots₁]⟩
  rw [run, List.foldlM_append]
  show (run c R actions (.start c st)).bind _ = _
  rw [hrun, Option.bind_some]
  exact (run_cons_of_step hstep).trans hnext

theorem exists_next_frame_first : ∃ next s', run oneFrame sampler ([.start] ++ next) (.start oneFrame ⟨(), {}⟩) = some s' ∧
    next.length ≤ 5 ∧ plots s'.outputs = [[[5]]] :=
  exists_next_frame oneFrame sampler ⟨(), {}⟩ [.start] rfl ⟨rfl, rfl⟩ rfl rfl ⟨1, 1, 1⟩ rfl (by decide) (by decide) (by decide) rfl

end DaphneZmq.Osc
