import DaphneZmq.Theorems.Router
import Mathlib.Data.List.Nodup

/-! Whether the ids that the server gives its replies are distinct. An id is a reading of the clock, shifted by 16 bits,
with the number of the call XORed into it: the number has more than 16 bits from the 65536th call on. -/

namespace DaphneZmq
open Lib.Wire

namespace MessageIds
open V2 Router

variable {δ : Type} {R : Router δ} {st : Router.State δ} {n m s r : UInt64}

/-! ### One id -/

/-- The value of `next_msg_id` at a reading of the clock, with the number of the call. -/
def idOf (now seq : UInt64) : UInt64 := ((now <<< 16) ^^^ seq) &&& (((1 : UInt64) <<< 63) - 1)

/-- The numbers agree modulo 2^16, and the readings agree modulo 2^47 once the rest of the number is XORed in. -/
def Clash (n s m r : UInt64) : Prop :=
  s.toNat % 2 ^ 16 = r.toNat % 2 ^ 16 ∧ (n ^^^ (s >>> 16)).toNat % 2 ^ 47 = (m ^^^ (r >>> 16)).toNat % 2 ^ 47

theorem testBit_idOf (i : Nat) : (idOf n s).toNat.testBit i =
    (decide (i < 63) && ((decide (16 ≤ i) && n.toNat.testBit (i - 16)) ^^ s.toNat.testBit i)) := by
  have hmask : ((((1 : UInt64) <<< 63) - 1)).toNat = 2 ^ 63 - 1 := by decide
  rw [idOf, UInt64.toNat_and, Nat.testBit_and, hmask, Nat.testBit_two_pow_sub_one, UInt64.toNat_xor, Nat.testBit_xor,
    UInt64.toNat_shiftLeft, Nat.testBit_mod_two_pow, Nat.testBit_shiftLeft]
  by_cases hi : i < 63
  · have : i < 64 := by omega
    simp [hi, this, Bool.and_comm]
  · simp [hi]

theorem mod_eq_iff {a b k : Nat} : a % 2 ^ k = b % 2 ^ k ↔ ∀ i < k, a.testBit i = b.testBit i := by
  constructor
  · intro h i hi
    have := congrArg (·.testBit i) h
    simpa [Nat.testBit_mod_two_pow, hi] using this
  · intro h
    refine Nat.eq_of_testBit_eq fun i => ?_
    rw [Nat.testBit_mod_two_pow, Nat.testBit_mod_two_pow]
    by_cases hi : i < k
    · rw [h i hi]
    · simp [hi]

theorem clash_iff_testBit : Clash n s m r ↔ (∀ i < 16, s.toNat.testBit i = r.toNat.testBit i) ∧
    ∀ i < 47, (n.toNat.testBit i ^^ s.toNat.testBit (i + 16)) = (m.toNat.testBit i ^^ r.toNat.testBit (i + 16)) := by
  have hbit (n s : UInt64) (i : Nat) : (n ^^^ (s >>> 16)).toNat.testBit i = (n.toNat.testBit i ^^ s.toNat.testBit (i + 16)) := by
    rw [UInt64.toNat_xor, Nat.testBit_xor, UInt64.toNat_shiftRight, Nat.testBit_shiftRight, Nat.add_comm]
    rfl
  rw [Clash, mod_eq_iff, mod_eq_iff]
  simp only [hbit]

theorem idOf_eq_iff : idOf n s = idOf m r ↔ Clash n s m r := by
  rw [clash_iff_testBit, ← UInt64.toNat_inj]
  constructor
  · intro h
    have hbit (i : Nat) := congrArg (·.testBit i) h
    simp only [testBit_idOf] at hbit
    refine ⟨fun i hi => ?_, fun i hi => ?_⟩
    · have h63 : i < 63 := by omega
      have h16 : ¬16 ≤ i := by omega
      simpa [h63, h16] using hbit i
    · have h63 : i + 16 < 63 := by omega
      simpa [h63] using hbit (i + 16)
  · rintro ⟨hlow, hhigh⟩
    refine Nat.eq_of_testBit_eq fun i => ?_
    rw [testBit_idOf, testBit_idOf]
    by_cases h16 : 16 ≤ i
    · by_cases h63 : i < 63
      · have := hhigh (i - 16) (by omega)
        rw [Nat.sub_add_cancel h16] at this
        simp [h16, h63, this]
      · simp [h63]
    · rw [hlow i (by omega)]
      simp [h16]

/-! ### The ids of a run -/

/-- The ids of the replies of a run, in order. -/
def msgIds (trace : List (Router.State δ × List Reply)) : List UInt64 := trace.flatMap fun round => round.2.map (·.envelope.msgId)

/-- The ids of `count` replies that follow a state: each one takes a reading of the clock for its id and one for its
timestamp. -/
def idsFrom (clock : Nat → UInt64) (ids : Ids) (count : Nat) : List UInt64 :=
  (List.range count).map fun k => idOf (clock (ids.readings + 2 * k)) (ids.seq + .ofNat k)

def Ids.after (ids : Ids) (count : Nat) : Ids := ⟨ids.seq + .ofNat count, ids.readings + 2 * count⟩

theorem idsFrom_add (clock : Nat → UInt64) (ids : Ids) (a b : Nat) :
    idsFrom clock ids (a + b) = idsFrom clock ids a ++ idsFrom clock (Ids.after ids a) b := by
  have hrest : (fun k => idOf (clock (ids.readings + 2 * k)) (ids.seq + .ofNat k)) ∘ (a + ·) =
      fun k => idOf (clock ((Ids.after ids a).readings + 2 * k)) ((Ids.after ids a).seq + .ofNat k) := by
    funext k
    simp only [Function.comp_apply, Ids.after, UInt64.ofNat_add]
    rw [Nat.mul_add, Nat.add_assoc, UInt64.add_assoc]
  rw [idsFrom, idsFrom, idsFrom, List.range_add, List.map_append, List.map_map, hrest]

theorem Ids.after_add (ids : Ids) (a b : Nat) : Ids.after (Ids.after ids a) b = Ids.after ids (a + b) := by
  simp only [Ids.after, UInt64.ofNat_add, Nat.mul_add, Nat.add_assoc, UInt64.add_assoc]

/-- Replies that take the ids which follow `ids`, and leave `ids'`. -/
structure Takes (R : Router δ) (ids : Ids) (rs : List Reply) (ids' : Ids) : Prop where
  replies : rs.map (·.envelope.msgId) = idsFrom R.clock ids rs.length
  after : ids' = Ids.after ids rs.length

theorem Takes.nil (ids : Ids) : Takes R ids [] ids := ⟨rfl, by simp [Ids.after]⟩

theorem takes_reply (clientId : Bytes) (req : ControlEnvelopeV2) (type : MessageTypeV2) (payload : Bytes) (st : Router.State δ) :
    Takes R st.ids [(R.reply st clientId req type payload).1] (R.reply st clientId req type payload).2.ids := by
  refine ⟨?_, rfl⟩
  simp [idsFrom, Router.reply, makeResponse, nextMsgId, idOf]

theorem Takes.append {ids ids' ids'' : Ids} {rs rs' : List Reply} (h : Takes R ids rs ids') (h' : Takes R ids' rs' ids'') :
    Takes R ids (rs ++ rs') ids'' := by
  refine ⟨?_, ?_⟩
  · rw [List.map_append, h.replies, h'.replies, h.after, List.length_append, idsFrom_add]
  · rw [h'.after, h.after, Ids.after_add, List.length_append]

theorem takes_replyChunks (clientId : Bytes) (req : ControlEnvelopeV2) : ∀ (chunks : List DumpSpyBuffersChunkResponse)
    (st : Router.State δ), Takes R st.ids (R.replyChunks st clientId req chunks).1 (R.replyChunks st clientId req chunks).2.ids
  | [], st => .nil st.ids
  | _ :: chunks, st => (takes_reply clientId req _ _ st).append (takes_replyChunks clientId req chunks _)

theorem takes_serveChunk (st : Router.State δ) (clientId : Bytes) (req : ControlEnvelopeV2) :
    ∃ ids, Takes R st.ids (R.serveChunk st clientId req).1 ids ∧ ∀ st' ∈ (R.serveChunk st clientId req).2, st'.ids = ids := by
  unfold serveChunk
  split
  · exact ⟨_, takes_replyChunks clientId req _ st, fun st' hst' => by rw [← Option.mem_some.mp hst']⟩
  · rename_i chunkReq _
    rcases R.dump chunkReq st.device with ⟨outcome, device⟩
    have htakes : Takes R st.ids _ _ := takes_replyChunks clientId req outcome.responses { st with device }
    refine ⟨_, htakes, fun st' hst' => ?_⟩
    dsimp only at hst'
    split at hst'
    · rw [← Option.mem_some.mp hst']
    · cases hst'

theorem takes_serveRequest (st : Router.State δ) (clientId : Bytes) (req : ControlEnvelopeV2) :
    Takes R st.ids [(R.serveRequest st clientId req).1] (R.serveRequest st clientId req).2.ids := by
  unfold serveRequest
  split
  · exact takes_reply clientId req _ _ st
  · split
    · exact takes_reply clientId req _ _ { st with device := _ }
    · exact takes_reply clientId req _ _ { st with device := _ }

theorem takes_serveMessage (st : Router.State δ) (frames : List Bytes) :
    ∃ ids, Takes R st.ids (R.serveMessage st frames).1 ids ∧ ∀ st' ∈ (R.serveMessage st frames).2, st'.ids = ids := by
  by_cases h : ∃ clientId req, R.Carries frames clientId req
  · obtain ⟨clientId, req, h⟩ := h
    rw [serveMessage_of_carries h]
    split
    · exact takes_serveChunk st clientId req
    · exact ⟨_, takes_serveRequest st clientId req, fun st' hst' => by rw [← Option.mem_some.mp hst']⟩
  · rw [serveMessage_of_not_carries fun clientId req hc => h ⟨clientId, req, hc⟩]
    exact ⟨_, .nil st.ids, fun st' hst' => by rw [← Option.mem_some.mp hst']⟩

/-- The ids of a run are those that follow the state that it starts from. -/
theorem msgIds_serve : ∀ (messages : List (List Bytes)) (st : Router.State δ),
    msgIds (R.serve st messages) = idsFrom R.clock st.ids (msgIds (R.serve st messages)).length
  | [], _ => rfl
  | frames :: messages, st => by
    obtain ⟨ids, htakes, hnext⟩ := takes_serveMessage (R := R) st frames
    rw [serve_cons]
    cases hafter : (R.serveMessage st frames).2 with
    | none => simpa [msgIds] using htakes.replies
    | some st' =>
      have htail := msgIds_serve messages st'
      have hids : st'.ids = Ids.after st.ids (R.serveMessage st frames).1.length := (hnext st' hafter).trans htakes.after
      rw [hids] at htail
      have hsplit : msgIds ((st, (R.serveMessage st frames).1) :: R.serve st' messages) =
          (R.serveMessage st frames).1.map (·.envelope.msgId) ++ msgIds (R.serve st' messages) := rfl
      show msgIds ((st, _) :: R.serve st' messages) = idsFrom R.clock st.ids (msgIds ((st, _) :: R.serve st' messages)).length
      rw [hsplit, List.length_append, List.length_map, idsFrom_add, ← htail, htakes.replies]

theorem idsFrom_nodup {clock : Nat → UInt64} {ids : Ids} {count : Nat} : (idsFrom clock ids count).Nodup ↔
    ∀ i j, i < j → j < count → ¬Clash (clock (ids.readings + 2 * i)) (ids.seq + .ofNat i) (clock (ids.readings + 2 * j))
      (ids.seq + .ofNat j) := by
  have hlength : (idsFrom clock ids count).length = count := by simp [idsFrom]
  rw [List.nodup_iff_getElem?_ne_getElem?, hlength]
  refine forall_congr' fun i => forall_congr' fun j => forall_congr' fun hij => forall_congr' fun hj => ?_
  have hi : i < count := Nat.lt_trans hij hj
  rw [ne_eq, not_iff_not, ← idOf_eq_iff]
  simp [idsFrom, hi, hj]

theorem msgIds_nodup_iff (st : Router.State δ) (messages : List (List Bytes)) : (msgIds (R.serve st messages)).Nodup ↔
    ∀ i j, i < j → j < (msgIds (R.serve st messages)).length →
      ¬Clash (R.clock (st.ids.readings + 2 * i)) (st.ids.seq + .ofNat i) (R.clock (st.ids.readings + 2 * j)) (st.ids.seq + .ofNat j) := by
  have hids := msgIds_serve (R := R) messages st
  generalize msgIds (R.serve st messages) = ids at hids ⊢
  conv_lhs => rw [hids]
  exact idsFrom_nodup

/-- The ids of a run of the server are distinct exactly when no two of its calls clash. -/
theorem serve_msgIds_nodup_iff (R : Router δ) (device : δ) (messages : List (List Bytes)) :
    (msgIds (R.serve ⟨device, {}⟩ messages)).Nodup ↔ ∀ i j, i < j → j < (msgIds (R.serve ⟨device, {}⟩ messages)).length →
      ¬Clash (R.clock (2 * i)) (1 + .ofNat i) (R.clock (2 * j)) (1 + .ofNat j) := by
  simpa only [Nat.zero_add] using msgIds_nodup_iff (R := R) ⟨device, {}⟩ messages

/-- The ids of the first 65536 calls are distinct, whatever the clock does. -/
theorem serve_msgIds_nodup_of_length_le (R : Router δ) (device : δ) (messages : List (List Bytes))
    (h : (msgIds (R.serve ⟨device, {}⟩ messages)).length ≤ 2 ^ 16) : (msgIds (R.serve ⟨device, {}⟩ messages)).Nodup := by
  refine (msgIds_nodup_iff ⟨device, {}⟩ messages).mpr fun i j hij hj hclash => ?_
  have hone : (1 : UInt64).toNat = 1 := rfl
  have hmod := hclash.1
  rw [UInt64.toNat_add, UInt64.toNat_add, UInt64.toNat_ofNat', UInt64.toNat_ofNat', hone] at hmod
  omega

/-! ### A clock that ticks once -/

theorem msgIds_length (messages : List (List Bytes)) : ∀ (st : Router.State δ),
    (∀ frames ∈ messages, ∃ clientId req, R.Carries frames clientId req ∧ req.type ≠ MessageTypeV2.mt2DumpSpybufferChunkReq) →
      (msgIds (R.serve st messages)).length = messages.length := by
  induction messages with
  | nil => exact fun _ _ => rfl
  | cons frames messages ih =>
    intro st h
    obtain ⟨clientId, req, hcarries, htype⟩ := h frames List.mem_cons_self
    have htail := ih (R.serveRequest st clientId req).2 fun frames hmem => h frames (List.mem_cons_of_mem _ hmem)
    rw [serve_cons, serveMessage_of_carries hcarries, if_neg htype]
    simp only [msgIds, Option.elim_some, List.flatMap_cons, List.length_append, List.length_map, List.length_nil,
      List.length_cons] at htail ⊢
    omega

/-- A router whose clock is at 0 for the readings of the first 65536 calls and at 1 from then on. -/
def tickRouter : Router Unit where
  handlers _ := none
  dump _ _ := (⟨[], .returned⟩, ())
  clock k := if k < 2 * 65536 then 0 else 1

theorem tickRouter_clock_le {i j : Nat} (hij : i ≤ j) : tickRouter.clock i ≤ tickRouter.clock j := by
  simp only [tickRouter]
  split
  · exact UInt64.zero_le
  · rw [if_neg (by omega)]
    exact UInt64.le_refl 1

def emptyRequest : ControlEnvelopeV2 := { version := 2, dir := .dirRequest }

theorem emptyRequest_carried : tickRouter.Carries [[1], serializeAsString emptyRequest.fields] [1] emptyRequest where
  two := le_rfl
  first := rfl
  last := ⟨_, rfl, by decide, by decide⟩
  version := rfl
  dir := rfl

/-- The first and the 65537th of a run of empty requests get replies with the same id. -/
theorem serve_msgIds_repeats : ¬∀ (R : Router Unit) (device : Unit) (messages : List (List Bytes)),
    (∀ i j, i ≤ j → R.clock i ≤ R.clock j) → (msgIds (R.serve ⟨device, {}⟩ messages)).Nodup := by
  intro h
  have hlength := msgIds_length (R := tickRouter) (List.replicate 65537 [[1], serializeAsString emptyRequest.fields]) ⟨(), {}⟩
    fun frames hmem => ⟨[1], emptyRequest, List.eq_of_mem_replicate hmem ▸ emptyRequest_carried, by decide⟩
  have hnodup := h tickRouter () (List.replicate 65537 [[1], serializeAsString emptyRequest.fields]) fun _ _ => tickRouter_clock_le
  rw [msgIds_nodup_iff, hlength, List.length_replicate] at hnodup
  exact hnodup 0 65536 (by decide) (by decide) ⟨rfl, rfl⟩

end MessageIds
end DaphneZmq
