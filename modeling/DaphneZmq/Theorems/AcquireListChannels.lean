import DaphneZmq.AcquireListChannels
import DaphneZmq.Theorems.DumpReplies
import DaphneZmq.Theorems.Router

/-! # What the streaming client makes of a chunked dump

The router answers with new envelopes and the client reads them with the legacy schema, in which field 1 is the
type. That field holds the version, so no reply has the type that the loop waits for: it skips all of them
(`stream_v2`). -/

namespace DaphneZmq

namespace AcquireListChannels
open Lib.Wire

/-- No new envelope reads as a legacy one with the awaited type. -/
theorem type_ne_awaited {args : Args} (hv2 : args.v2 = true) (hlegacy : args.legacy = false) {m : ControlEnvelopeV2}
    (hversion : m.version = 2) {respEnv : ControlEnvelope}
    (h : ControlEnvelope.parseFromString (serializeAsString m.fields) = some respEnv) : respEnv.type ≠ awaited args := by
  rw [ControlEnvelope.parse_v2, hversion] at h
  obtain rfl := Option.some.inj h
  have hawaited : awaited args = 301 := by simp [awaited, hv2, hlegacy, MessageTypeV2.mt2DumpSpybufferChunkResp]
  rw [hawaited]
  split
  · decide
  · decide

/-- The loop skips every new envelope, and waits in vain. -/
theorem stream_v2 {args : Args} (hv2 : args.v2 = true) (hlegacy : args.legacy = false) (progress : Progress)
    {envelopes : List ControlEnvelopeV2} (h : ∀ m ∈ envelopes, m.version = 2) :
    stream args progress (envelopes.map fun m => serializeAsString m.fields) = (progress, .timedOut) := by
  induction envelopes with
  | nil => rfl
  | cons m envelopes ih =>
    rw [List.map_cons, stream]
    have hparse := ControlEnvelope.parse_v2 m
    have hne := type_ne_awaited hv2 hlegacy (h m List.mem_cons_self) hparse
    rw [hparse]
    simp only [hne, ne_eq, not_false_eq_true, ↓reduceIte]
    exact ih fun m hm => h m (List.mem_cons_of_mem _ hm)

open Chunker Pipeline

/-- The streaming loop leaves at the final chunk, and has written to the file of each channel the channel's samples
    of all the waveforms, in order. -/
def Acquires (req : DumpSpyBuffersChunkRequest) (hw : SpyHardware) (channels : List Nat) (replies : List Reply) : Prop :=
  let result := stream { channelList := req.channelList, L := req.numberOfSamples.toNat } {}
    (replies.map fun r => serializeAsString r.envelope.fields)
  result.2 = .final ∧ ∀ j ch, req.channelList[j]? = some ch → result.1.files ch =
    (List.range req.numberOfWaveforms.toNat).flatMap fun w =>
      (((waveform hw req.softwareTrigger channels req.numberOfSamples.toNat w).drop (j * req.numberOfSamples.toNat)).take
        req.numberOfSamples.toNat).map UInt32.toUInt16

section
variable {req : DumpSpyBuffersChunkRequest} {hw : SpyHardware} {env : Option Nat} {channels : List Nat} {δ : Type}

theorem stream_replyChunks (R : Router δ) (st : Router.State δ) (clientId : Bytes) (envelope : ControlEnvelopeV2)
    (rs : List DumpSpyBuffersChunkResponse) {args : Args} (hv2 : args.v2 = true) (hlegacy : args.legacy = false) :
    stream args {} ((R.replyChunks st clientId envelope rs).1.map fun r => serializeAsString r.envelope.fields) =
      ({}, .timedOut) := by
  have hversion : ∀ m ∈ (R.replyChunks st clientId envelope rs).1.map Reply.envelope, m.version = 2 := by
    intro m hm
    obtain ⟨r, hr, rfl⟩ := List.mem_map.mp hm
    exact (R.replyChunks_mem clientId envelope rs st r hr).2.1
  have hmap : (R.replyChunks st clientId envelope rs).1.map (fun r => serializeAsString r.envelope.fields) =
      ((R.replyChunks st clientId envelope rs).1.map Reply.envelope).map fun m => serializeAsString m.fields := by
    rw [List.map_map, Function.comp_def]
  rw [hmap, stream_v2 hv2 hlegacy {} hversion]

theorem not_acquires_replyChunks (R : Router δ) (st : Router.State δ) (clientId : Bytes) (envelope : ControlEnvelopeV2)
    (rs : List DumpSpyBuffersChunkResponse) : ¬Acquires req hw channels (R.replyChunks st clientId envelope rs).1 := by
  rintro ⟨hend, -⟩
  rw [stream_replyChunks R st clientId envelope rs rfl rfl] at hend
  cases hend

/-- Whatever chunk responses a run of the dump sends, the streaming loop does not acquire the waveforms. -/
theorem not_acquires (_ : validate req env = .ok channels) (_ : req.channelList.Nodup) (R : Router δ)
    (st : Router.State δ) (clientId : Bytes) (envelope : ControlEnvelopeV2) (rs : List DumpSpyBuffersChunkResponse) :
    ¬Acquires req hw channels (R.replyChunks st clientId envelope rs).1 :=
  not_acquires_replyChunks R st clientId envelope rs

end

/-- The envelope that carries `oneWaveform`. -/
def oneWaveformEnvelope : ControlEnvelopeV2 where
  version := 2
  type := MessageTypeV2.mt2DumpSpybufferChunkReq
  payload := oneWaveformPayload
  route := "mezz/0"

/-- The dump of `oneWaveform` succeeds and the client times out. -/
theorem oneWaveform_not_acquires :
    ¬∀ (R : Router Unit) st clientId envelope req hw env channels o, validate req env = .ok channels →
      req.channelList.Nodup → ForEachSpybufferChunk req hw env (fun _ => false) "" o →
      Acquires req hw channels (R.replyChunks st clientId envelope o.responses).1 := by
  intro h
  have hok : validate oneWaveform none = .ok [0] := by rfl
  have hquiet : ∀ n, quietHardware.throws n = false := fun _ => rfl
  have hm : Makes (pipeline oneWaveform quietHardware [0] fun _ => false) _ false :=
    makes_all (valid_of_validate hok) (not_faults_of_returns hquiet) (by decide)
  obtain ⟨ls, s, hrun, -, hr⟩ := hm.exists_returned pipeline_capacity_pos pipeline_callbackReturns
  exact not_acquires_replyChunks _ _ _ _ _ (h Router.bareRouter ⟨(), {}⟩ [1] oneWaveformEnvelope oneWaveform quietHardware
    none [0] _ hok (by decide) (.ran hok hrun (outcome_of_returned hr)))

/-- The same for three waveforms of two channels, when all chunks arrive. -/
theorem smallRequest_not_acquires : ¬Acquires smallRequest quietHardware [0, 25]
    (Router.bareRouter.replyChunks ⟨(), {}⟩ [1] oneWaveformEnvelope (chunkResponses smallRequest quietHardware [0, 25] 2)).1 :=
  not_acquires (show validate smallRequest none = .ok [0, 25] by rfl) (by decide) Router.bareRouter ⟨(), {}⟩ [1]
    oneWaveformEnvelope _

end AcquireListChannels
end DaphneZmq
