import DaphneZmq.Router
import DaphneZmq.Theorems.ChunkedDump

/-! # What the router sends for a chunk request

A client reads chunk responses until one is marked as final. The last chunk is marked so by its numbers alone,
and an exception of the producer thread only sets a flag: a dump that fails before its last chunk has no final
response at all (`closes_iff`). An exception of `on_chunk` meets a thread that can still be joined, and ends the
process (`not_handlesThrow`). -/

namespace DaphneZmq.Chunker
open Pipeline

variable {req : DumpSpyBuffersChunkRequest} {hw : SpyHardware} {env : Option Nat} {channels : List Nat}
  {throws : Nat → Bool} {what : String}

/-! ### The closing response -/

/-- Exactly the last response is final, and it reports success only if `complete`. -/
def ClosesOnce (complete : Prop) (rs : List DumpSpyBuffersChunkResponse) : Prop :=
  ∃ front last, rs = front ++ [last] ∧ last.isFinal = true ∧ (∀ r ∈ front, r.isFinal = false) ∧
    (last.success = true → complete)

/-- The responses carry all the waveforms of the request. -/
def Complete (req : DumpSpyBuffersChunkRequest) (hw : SpyHardware) (env : Option Nat)
    (rs : List DumpSpyBuffersChunkResponse) : Prop :=
  ∃ channels, validate req env = .ok channels ∧ rs.flatMap (·.data) =
    (List.range req.numberOfWaveforms.toNat).flatMap (waveform hw req.softwareTrigger channels req.numberOfSamples.toNat)

/-- Whatever the interleaving, the dump of an accepted request comes to an end and is closed. -/
def Closes (req : DumpSpyBuffersChunkRequest) (hw : SpyHardware) (env : Option Nat) : Prop :=
  (∀ channels, validate req env = .ok channels → Terminates (pipeline req hw channels fun _ => false) ∧
      ∀ ls (s : State (pipeline req hw channels fun _ => false)), Reaches _ ls s → s.Stuck → s.consumer = .returned) ∧
    ∀ o, ForEachSpybufferChunk req hw env (fun _ => false) "" o → ClosesOnce (Complete req hw env o.responses) o.responses

/-- A client that sends this payload in a chunk request gets exactly one final response, the last one, and
    learns from it whether the dump is complete. -/
def AlwaysCloses (payload : Lib.Wire.Bytes) (hw : SpyHardware) (env : Option Nat) : Prop :=
  match DumpSpyBuffersChunkRequest.parseFromString payload with
  | none => ClosesOnce False [badPayload]
  | some req => Closes req hw env

theorem closesOnce_badPayload (complete : Prop) : ClosesOnce complete [badPayload] :=
  ⟨[], badPayload, rfl, rfl, by simp, by simp [badPayload]⟩

theorem closesOnce_dumpFailed (complete : Prop) : ClosesOnce complete [dumpFailed what] :=
  ⟨[], dumpFailed what, rfl, rfl, by simp, by simp [dumpFailed]⟩

theorem closes_of_rejected {error : String} (h : validate req env = .error error) : Closes req hw env := by
  refine ⟨fun channels hok => ?_, fun o ho => ?_⟩
  · rw [h] at hok
    cases hok
  cases ho with
  | rejected => exact closesOnce_dumpFailed _
  | ran hok => rw [h] at hok; cases hok

/-- The final response of a dump is the one of its last chunk, whatever the flag says. -/
theorem closesOnce_of_packets (h : validate req env = .ok channels)
    {ds : List (Bool × ChunkPacket)}
    (hds : ds.map (·.2) = (List.range (chunkCount req)).map (packet req hw channels)) :
    ClosesOnce (Complete req hw env (ds.map (response req))) (ds.map (response req)) := by
  have hv := valid_of_validate h
  obtain ⟨k, hk⟩ : ∃ k, chunkCount req = k + 1 := ⟨chunkCount req - 1, by have := chunkCount_pos hv; omega⟩
  have hdata : (ds.map (response req)).flatMap (·.data) = (List.range req.numberOfWaveforms.toNat).flatMap
      (waveform hw req.softwareTrigger channels req.numberOfSamples.toNat) := by
    rw [← (chunkedDump hv).data, chunkResponses, List.flatMap_map, List.flatMap_map]
    calc ds.flatMap (fun d => (response req d).data) = (ds.map (·.2)).flatMap ChunkPacket.data := by
          rw [List.flatMap_map]; rfl
      _ = _ := by rw [hds, List.flatMap_map]; rfl
  obtain ⟨front, d, rfl⟩ : ∃ front d, ds = front ++ [d] := by
    rcases List.eq_nil_or_concat ds with rfl | ⟨front, d, rfl⟩
    · rw [hk] at hds
      simp at hds
    · exact ⟨front, d, by simp⟩
  rw [hk, List.range_succ, List.map_append, List.map_append] at hds
  obtain ⟨hfront, hlast⟩ := List.append_inj' hds (by simp)
  have hd : d.2 = packet req hw channels k := by simpa using hlast
  refine ⟨front.map (response req), response req d, by simp, ?_, fun r hr => ?_, fun _ => ⟨channels, h, hdata⟩⟩
  · rw [show d = (d.1, packet req hw channels k) from Prod.ext rfl hd]
    exact (response_isFinal hv (by omega)).mpr hk.symm
  · obtain ⟨e, he, rfl⟩ := List.mem_map.mp hr
    obtain ⟨i, hi, hx⟩ := List.mem_map.mp (hfront ▸ List.mem_map_of_mem he : e.2 ∈ (List.range k).map _)
    have hlt := List.mem_range.mp hi
    rw [show e = (e.1, packet req hw channels i) from Prod.ext rfl hx.symm]
    refine Bool.eq_false_iff.mpr fun hfinal => ?_
    have := (response_isFinal hv (by omega)).mp hfinal
    omega

/-! ### Where the producer ends -/

theorem outcome_of_returned {P : Pipeline ProducerState ChunkPacket} {s : State P} (hr : s.consumer = .returned) :
    outcome req what s = some ⟨s.delivered.map (response req), .returned⟩ := by
  rw [outcome, hr]
  rfl

/-- With callbacks that return, a run is at its end only when the consumer loop has returned. -/
theorem returned_of_outcome (hcb : CallbackReturns (pipeline req hw channels throws)) {ls : List Label}
    {s : State (pipeline req hw channels throws)} (h : Reaches _ ls s) {o : DumpOutcome}
    (ho : outcome req what s = some o) : s.consumer = .returned ∧ o = ⟨s.delivered.map (response req), .returned⟩ := by
  have hterm := h.inv.not_terminated hcb
  have hthrew := h.inv.threw
  cases hc : s.consumer with
  | returned =>
    rw [outcome_of_returned hc] at ho
    cases ho
    exact ⟨rfl, rfl⟩
  | threw => exact absurd hc hthrew
  | terminated => exact absurd hc hterm
  | pop | waitNotEmpty | got x | joining =>
    rw [outcome, hc] at ho
    cases ho

/-- A producer that makes the packets of all chunks, and ends in whichever way, gives a closed dump. -/
theorem closes_of_makes (h : validate req env = .ok channels) {failed : Bool}
    (hm : Makes (pipeline req hw channels fun _ => false)
      ((List.range (chunkCount req)).map (packet req hw channels)) failed) : Closes req hw env := by
  refine ⟨fun channels' hok => ?_, fun o ho => ?_⟩
  · rw [h] at hok
    cases hok
    exact ⟨(terminates_iff pipeline_capacity_pos pipeline_callbackReturns).mpr ⟨_, _, hm⟩,
      fun ls s hrun hstuck => hrun.returned_of_stuck pipeline_capacity_pos pipeline_callbackReturns hstuck⟩
  · cases ho with
    | rejected herr => rw [h] at herr; cases herr
    | ran hok hrun ho =>
      rw [h] at hok
      cases hok
      obtain ⟨hr, rfl⟩ := returned_of_outcome pipeline_callbackReturns hrun ho
      exact closesOnce_of_packets h (hm.delivered hrun hr).1

theorem exists_closesOnce (h : validate req env = .ok channels) (hc : Closes req hw env) :
    ∃ xs failed, Makes (pipeline req hw channels fun _ => false) xs failed ∧
      ∃ ds : List (Bool × ChunkPacket), ds.map (·.2) = xs ∧
        ∃ complete, ClosesOnce complete (ds.map (response req)) := by
  obtain ⟨hall, hclose⟩ := hc
  obtain ⟨xs, failed, hm⟩ := (terminates_iff pipeline_capacity_pos pipeline_callbackReturns).mp (hall channels h).1
  obtain ⟨ls, s, hrun, -, hr⟩ := hm.exists_returned pipeline_capacity_pos pipeline_callbackReturns
  exact ⟨xs, failed, hm, s.delivered, (hm.delivered hrun hr).1, _, hclose _ (.ran h hrun (outcome_of_returned hr))⟩

theorem not_closes_of_faults (h : validate req env = .ok channels)
    (hf : Faults req hw channels 0 req.numberOfWaveforms.toNat) : ¬Closes req hw env := by
  intro hc
  have hv := valid_of_validate h
  obtain ⟨xs, failed, hm, ds, hds, complete, front, last, heq, hfinal, -⟩ := exists_closesOnce h hc
  obtain ⟨i, hi, hm'⟩ := makes_of_faults hv hf
  obtain ⟨rfl, -⟩ := hm.unique hm'
  have hlast : last ∈ ds.map (response req) := heq ▸ List.mem_append_right _ (List.mem_singleton_self _)
  obtain ⟨d, hd, rfl⟩ := List.mem_map.mp hlast
  obtain ⟨j, hj, hx⟩ := List.mem_map.mp (hds ▸ List.mem_map_of_mem hd : d.2 ∈ (List.range i).map _)
  have hlt := List.mem_range.mp hj
  rw [show d = (d.1, packet req hw channels j) from Prod.ext rfl hx.symm, response_isFinal hv (by omega)] at hfinal
  omega

/-- A dump whose counter wraps goes on after its final response. -/
theorem not_closes_of_wrap (h : validate req env = .ok channels)
    (hnf : ¬Faults req hw channels 0 req.numberOfWaveforms.toNat)
    (hwrap : 2 ^ 32 ≤ chunkCount req * req.chunkSize.toNat)
    (hf : ¬Faults req hw channels req.numberOfWaveforms.toNat (req.numberOfWaveforms.toNat + req.chunkSize.toNat)) :
    ¬Closes req hw env := by
  intro hc
  have hv := valid_of_validate h
  obtain ⟨xs, failed, hm, ds, hds, complete, front, last, heq, -, hfront, -⟩ := exists_closesOnce h hc
  have hlt := lt_length_of_wrap hv hnf hwrap hf hm
  obtain ⟨st, he, -⟩ := id hm
  obtain ⟨rest, rfl⟩ := he.prefix (emits_all hv hnf) (by simpa using hlt.le)
  obtain ⟨k, hk⟩ : ∃ k, chunkCount req = k + 1 := ⟨chunkCount req - 1, by have := chunkCount_pos hv; omega⟩
  -- The response of the last chunk stands before the last response.
  have hx : (ds.map (·.2))[k]? = some (packet req hw channels k) := by
    rw [hds, List.getElem?_append_left (by simp [hk]), List.getElem?_map, List.getElem?_range (by omega)]
    rfl
  rw [List.getElem?_map, Option.map_eq_some_iff] at hx
  obtain ⟨d, hd, hx⟩ := hx
  have hlen : ds.length = front.length + 1 := by simpa using congrArg List.length heq
  have hxs := congrArg List.length hds
  rw [List.length_map] at hxs
  have hmem : response req d ∈ front := by
    have hk' : (front ++ [last])[k]? = some (response req d) := by rw [← heq, List.getElem?_map, hd, Option.map_some]
    rw [List.getElem?_append_left (by omega)] at hk'
    exact List.mem_of_getElem? hk'
  have hfinal := hfront _ hmem
  rw [show d = (d.1, packet req hw channels k) from Prod.ext rfl hx, Bool.eq_false_iff, ne_eq,
    response_isFinal hv (by omega)] at hfinal
  exact hfinal hk.symm

/-- The condition under which a chunk request is answered as it should be: it is refused; or no access for its
    waveforms throws, and the counter does not wrap or an access of the chunk after the wrap throws. -/
def ClosesWhen (payload : Lib.Wire.Bytes) (hw : SpyHardware) (env : Option Nat) : Prop :=
  ∀ req channels, DumpSpyBuffersChunkRequest.parseFromString payload = some req → validate req env = .ok channels →
    ¬Faults req hw channels 0 req.numberOfWaveforms.toNat ∧
      (chunkCount req * req.chunkSize.toNat < 2 ^ 32 ∨
        Faults req hw channels req.numberOfWaveforms.toNat (req.numberOfWaveforms.toNat + req.chunkSize.toNat))

theorem closes_iff_of_accepted (h : validate req env = .ok channels) : Closes req hw env ↔
    ¬Faults req hw channels 0 req.numberOfWaveforms.toNat ∧
      (chunkCount req * req.chunkSize.toNat < 2 ^ 32 ∨
        Faults req hw channels req.numberOfWaveforms.toNat (req.numberOfWaveforms.toNat + req.chunkSize.toNat)) := by
  have hv := valid_of_validate h
  constructor
  · intro hc
    have hnf : ¬Faults req hw channels 0 req.numberOfWaveforms.toNat := fun hf => not_closes_of_faults h hf hc
    refine ⟨hnf, ?_⟩
    by_contra hno
    rw [not_or, Nat.not_lt] at hno
    exact not_closes_of_wrap h hnf hno.1 hno.2 hc
  · rintro ⟨hnf, hfit | hf⟩
    · exact closes_of_makes h (makes_all hv hnf hfit)
    · by_cases hfit : chunkCount req * req.chunkSize.toNat < 2 ^ 32
      · exact closes_of_makes h (makes_all hv hnf hfit)
      · exact closes_of_makes h (makes_wrap hv hnf (Nat.le_of_not_lt hfit) hf)

/-- When a client learns from the last response, and only from it, how its chunk request went. -/
theorem alwaysCloses_iff (payload : Lib.Wire.Bytes) (hw : SpyHardware) (env : Option Nat) :
    AlwaysCloses payload hw env ↔ ClosesWhen payload hw env := by
  unfold AlwaysCloses ClosesWhen
  cases hreq : DumpSpyBuffersChunkRequest.parseFromString payload with
  | none => simpa using closesOnce_badPayload False
  | some req =>
    cases hok : validate req env with
    | error what =>
      refine iff_of_true (closes_of_rejected hok) fun req' channels hreq' hok' => ?_
      cases hreq'
      rw [hok] at hok'
      cases hok'
    | ok channels =>
      refine (closes_iff_of_accepted hok).trans ?_
      constructor
      · intro hc req' channels' hreq' hok'
        cases hreq'
        rw [hok] at hok'
        cases hok'
        exact hc
      · exact fun hc => hc req channels rfl hok

/-- One sample of one waveform of channel 0, in one chunk. -/
def oneWaveform : DumpSpyBuffersChunkRequest := ⟨[0], 1, 1, false, "", 1⟩

/-- `oneWaveform` on the wire. -/
def oneWaveformPayload : Lib.Wire.Bytes := [0x0A, 0x01, 0x00, 0x10, 0x01, 0x18, 0x01, 0x30, 0x01]

/-- Hardware on which the first access throws. -/
def failingHardware : SpyHardware := ⟨fun n => n == 0, fun _ _ _ => 0⟩

/-- When the first extraction of `oneWaveform` throws, no response is sent. -/
theorem oneWaveform_not_alwaysCloses : ¬∀ payload hw env, AlwaysCloses payload hw env := by
  intro h
  have hparse : DumpSpyBuffersChunkRequest.parseFromString oneWaveformPayload = some oneWaveform := by decide
  have hok : validate oneWaveform none = .ok [0] := by rfl
  have hc := h oneWaveformPayload failingHardware none
  unfold AlwaysCloses at hc
  rw [hparse] at hc
  exact not_closes_of_faults hok ⟨0, by decide, by decide, rfl⟩ hc

/-! ### An exception of `on_chunk` -/

/-- What a call of `on_chunk` that is about to throw should lead to: whatever the two threads still do, the queue
    is closed, the producer has finished and is joined, and the router sends the failure after the chunks. -/
def HandlesThrow (req : DumpSpyBuffersChunkRequest) (what : String) {P : Pipeline ProducerState ChunkPacket}
    (s : State P) : Prop :=
  ∀ ls t, Lib.Run Step s ls t → t.Stuck →
    t.queue.closed = true ∧ t.producer = .finished ∧ t.joinable = false ∧
      ∃ o, outcome req what t = some o ∧ o.comesBack = true ∧ o.responses = responses req t ++ [dumpFailed what]

/-- The exception destroys the thread object while it can be joined, and that ends the process. -/
theorem unwind_terminates {P : Pipeline ProducerState ChunkPacket} {ls : List Label} {s : State P} (h : Reaches P ls s)
    {x : ChunkPacket} (hgot : s.consumer = .got x) (hthrow : P.callbackThrows s.delivered.length = true) :
    Step s .consumer s.unwind ∧ s.unwind.consumer = .terminated ∧ s.unwind.joinable = true := by
  have hj : s.joinable = true := h.inv.joinable.mpr (by simp [hgot])
  exact ⟨.callbackThrows hgot hthrow, by simp [State.unwind, hj], hj⟩

theorem not_handlesThrow_of_unwind {P : Pipeline ProducerState ChunkPacket} {ls : List Label} {s : State P}
    (h : Reaches P ls s) {x : ChunkPacket} (hgot : s.consumer = .got x)
    (hthrow : P.callbackThrows s.delivered.length = true) : ¬HandlesThrow req what s := by
  intro hh
  obtain ⟨hstep, hterm, hj⟩ := unwind_terminates h hgot hthrow
  obtain ⟨-, -, hjoined, -⟩ := hh _ _ (.single hstep) (stuck_of_terminated hterm)
  rw [hj] at hjoined
  cases hjoined

/-- No exception of `on_chunk` is handled, at whichever chunk and wherever the producer is. -/
theorem not_handlesThrow (_ : validate req env = .ok channels) {ls : List Label}
    {s : State (pipeline req hw channels throws)} (h : Reaches _ ls s) {x : ChunkPacket} (hgot : s.consumer = .got x)
    (hthrow : throws s.delivered.length = true) : ¬HandlesThrow req what s :=
  not_handlesThrow_of_unwind h hgot hthrow

theorem exists_first_chunk (throws : Nat → Bool) (h : validate req env = .ok channels) (hacc : ∀ n, hw.throws n = false) :
    ∃ ls, ∃ s : State (pipeline req hw channels throws), Reaches _ ls s ∧ (∃ x, s.consumer = .got x) ∧ s.delivered = [] := by
  have hv := valid_of_validate h
  have hn := nextPacket_before hv (chunkCount_pos hv) (not_faults_of_returns hacc)
  have hstart : before req channels 0 = (pipeline req hw channels throws).start := by
    simp [before, pipeline, accesses]
  rw [hstart] at hn
  obtain ⟨ls, s, hrun, hgot, hempty⟩ := exists_got hn pipeline_capacity_pos
  exact ⟨ls, s, hrun, ⟨_, hgot⟩, hempty⟩

/-- The first call of `on_chunk` for `oneWaveform` throws. -/
theorem oneWaveform_not_handlesThrow :
    ¬∀ req hw env channels throws what, validate req env = .ok channels →
      ∀ ls (s : State (pipeline req hw channels throws)) x, Reaches _ ls s → s.consumer = .got x →
        throws s.delivered.length = true → HandlesThrow req what s := by
  intro h
  have hok : validate oneWaveform none = .ok [0] := by rfl
  have hquiet : ∀ n, quietHardware.throws n = false := fun _ => rfl
  obtain ⟨ls, s, hrun, ⟨x, hgot⟩, -⟩ := exists_first_chunk (fun _ => true) hok hquiet
  exact not_handlesThrow_of_unwind hrun hgot rfl
    (h oneWaveform quietHardware none [0] (fun _ => true) "send failed" hok ls s x hrun hgot rfl)

/-- The same with three waveforms in two chunks, of which the first cannot be sent. -/
theorem smallRequest_not_handlesThrow :
    ∃ ls, ∃ s : State (pipeline smallRequest quietHardware [0, 25] fun n => n == 0), Reaches _ ls s ∧
      ¬HandlesThrow smallRequest "send failed" s := by
  have hok : validate smallRequest none = .ok [0, 25] := by rfl
  have hquiet : ∀ n, quietHardware.throws n = false := fun _ => rfl
  obtain ⟨ls, s, hrun, ⟨x, hgot⟩, hempty⟩ := exists_first_chunk (fun n => n == 0) hok hquiet
  exact ⟨ls, s, hrun, not_handlesThrow hok hrun hgot (by rw [hempty]; rfl)⟩

end DaphneZmq.Chunker
