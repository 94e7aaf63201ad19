import DaphneZmq.Theorems.Frames

/-! Whether the trims and offsets that the server answers with are the ones in the words of the DACs. A value is cut to 12
bits in its word; the handlers of channels check it before, but the configuration does not. -/

namespace DaphneZmq
open Lib Lib.Device
namespace TrimOffset
open Dac Handlers

/-! ### The words -/

/-- The channel of the chips that a word is for. Both halves address it, unless one of them was never set: that half is
    zero. -/
def pairOf (word : UInt32) : Nat := max (addressOf (halfOf word .L)) (addressOf (halfOf word .H))

/-- The last word of a log for a pair of channels of an AFE. -/
def lastWord (kind : Kind) (afe chipCh : Nat) (writes : List (Write Nat UInt32)) : Option UInt32 :=
  (writes.reverse.find? fun w => w.address = (registerData kind afe).addr ∧ pairOf w.word = chipCh).map (·.word)

/-- The value in the half of a channel; no word was sent for its pair if there is none. -/
def encoded (kind : Kind) (ch : Nat) (writes : List (Write Nat UInt32)) : Option UInt32 :=
  (Chunker.afeBoard2PLMap (ch / 8)).bind fun afe =>
    (lastWord kind afe (ch % 4) writes).map fun word => halfOf word (position (ch % 8)) &&& 0xFFF

/-- The key of a trim or of an offset. -/
def channelKey : Kind → Nat → StateKey
  | .trim => .channelTrim
  | .offset => .channelOffset

/-- The address of a word of trims or offsets. -/
def IsWord (a : Nat) : Prop := ∃ kind, ∃ afe < 5, a = (registerData kind afe).addr

/-- The read requests answer with the values in the words, and with 0 if there is none. -/
structure AnswersEncoded (s : ServerState) : Prop where
  single : ∀ kind (ch : UInt32), ch < 40 → readSingleChannel kind ch s = .ok ((encoded kind ch.toNat s.writes).getD 0) s
  all : ∀ kind, readAllChannels kind s = .ok ((List.range 40).map fun ch => (encoded kind ch s.writes).getD 0) s
  afe : ∀ kind (afeBlock : UInt32), afeBlock ≤ 4 → readAllAFE kind afeBlock s =
    .ok ((List.range 8).map fun idx => (encoded kind (afeBlock.toNat * 8 + idx) s.writes).getD 0) s

/-- Neither a kept value nor a word has changed. -/
structure Untouched (s t : ServerState) : Prop where
  kept : ∀ kind ch, t.driver.state (channelKey kind ch) = s.driver.state (channelKey kind ch)
  words : ∃ ws, t.writes = s.writes ++ ws ∧ ∀ w ∈ ws, ¬IsWord w.address

end TrimOffset

namespace Request

/-- The request names a trim or an offset that does not fit into 12 bits. -/
def NamesLarge : Request → Prop
  | configure cfg => ∃ config ∈ cfg.channels, config.trim > 4095 ∨ config.offset > 4095
  | writeTrimSingleChannel _ value _ | writeTrimAllChannels value _ | writeTrimAllAFE _ value _ => value > 4095
  | writeOffsetSingleChannel _ value _ | writeOffsetAllChannels value _ | writeOffsetAllAFE _ value _ => value > 4095
  | _ => False

/-- The trims and offsets of a configuration fit into 12 bits, or its first channel is not there. -/
def ConfiguresInRange : Request → Prop
  | configure cfg => (∀ config ∈ cfg.channels, config.trim ≤ 4095 ∧ config.offset ≤ 4095) ∨
      ∃ config ∈ cfg.channels.head?, config.id > 39
  | _ => True

end Request

namespace TrimOffset
open Dac Handlers
variable {b : Board} {s t : ServerState}

/-! ### What the driver keeps -/

/-- The halves and the kept values, against the log. -/
structure Coherent (s : ServerState) : Prop where
  kept : ∀ kind ch afe, ch < 40 → Chunker.afeBoard2PLMap (ch / 8) = some afe →
    s.driver.stateValue (channelKey kind ch) = s.driver.channelValues kind afe (ch % 8) &&& 0xFFF
  half : ∀ kind afe idx, s.driver.channelValues kind afe idx &&& 0xFFFF = s.driver.channelValues kind afe idx
  address : ∀ kind afe, ∀ idx < 8, s.driver.channelValues kind afe idx = 0 ∨
    addressOf (s.driver.channelValues kind afe idx) = idx % 4
  sent : ∀ kind, ∀ afe < 5, ∀ idx < 8, ((lastWord kind afe (idx % 4) s.writes).map fun word => halfOf word (position idx)).getD 0 =
    s.driver.channelValues kind afe idx

/-! ### A word is sent -/

theorem afeBoard2PLMap_inj {x y afe : Nat} (hx : Chunker.afeBoard2PLMap x = some afe)
    (hy : Chunker.afeBoard2PLMap y = some afe) : x = y := by
  unfold Chunker.afeBoard2PLMap at hx hy
  split at hx <;> cases hx <;> split at hy <;> cases hy <;> rfl

theorem registerData_inj {kind kind' : Kind} {afe afe' : Nat}
    (h : (registerData kind afe).addr = (registerData kind' afe').addr) : kind = kind' ∧ afe = afe' := by
  cases kind <;> cases kind' <;> simp only [registerData] at h <;> refine ⟨?_, by omega⟩ <;> first | rfl | omega

theorem channelKey_inj {kind kind' : Kind} {ch ch' : Nat} (h : channelKey kind ch = channelKey kind' ch') :
    kind = kind' ∧ ch = ch' := by
  cases kind <;> cases kind' <;> cases h <;> exact ⟨rfl, rfl⟩

theorem lastWord_append {kind kind' : Kind} {afe afe' p : Nat} {writes : List (Write Nat UInt32)} {w : Write Nat UInt32}
    (hw : w.address = (registerData kind afe).addr) : lastWord kind' afe' p (writes ++ [w]) =
      if kind' = kind ∧ afe' = afe ∧ p = pairOf w.word then some w.word else lastWord kind' afe' p writes := by
  have hiff : (w.address = (registerData kind' afe').addr ∧ pairOf w.word = p) ↔ kind' = kind ∧ afe' = afe ∧ p = pairOf w.word := by
    rw [hw]
    constructor
    · rintro ⟨haddr, rfl⟩
      obtain ⟨rfl, rfl⟩ := registerData_inj haddr
      exact ⟨rfl, rfl, rfl⟩
    · rintro ⟨rfl, rfl, rfl⟩
      exact ⟨rfl, rfl⟩
  unfold lastWord
  rw [List.reverse_append, List.reverse_singleton, List.singleton_append, List.find?_cons]
  simp only [hiff]
  split <;> rename_i h <;> simp only [decide_eq_true_eq, decide_eq_false_iff_not] at h
  · rw [if_pos h]
    rfl
  · rw [if_neg h]

/-- What a channel that is set leaves: its half is kept, and so is its value, and a word with the half is sent. -/
structure Set (kind : Kind) (afe ch : Nat) (value : UInt32) (data : UInt32) (s t : ServerState) : Prop where
  values : t.driver.channelValues = s.driver.channelValues.set kind afe (ch % 8) data
  state : t.driver.state = Function.update s.driver.state (channelKey kind ch) (some value)
  word : ∃ w : Write Nat UInt32, t.writes = s.writes ++ [w] ∧ w.address = (registerData kind afe).addr ∧
    halfOf w.word (position (ch % 8)) = data &&& 0xFFFF ∧
    halfOf w.word (position ((ch % 8 + 4) % 8)) = s.driver.channelValues kind afe ((ch % 8 + 4) % 8) &&& 0xFFFF

theorem pairOf_eq {idx : Nat} (hidx : idx < 8) (word : UInt32) : pairOf word =
    max (addressOf (halfOf word (position idx))) (addressOf (halfOf word (position ((idx + 4) % 8)))) := by
  rw [position_companion hidx]
  cases position idx with
  | L => rfl
  | H => exact Nat.max_comm _ _

theorem Coherent.set {kind : Kind} {afe ch : Nat} {value data : UInt32} (hs : Coherent s)
    (ht : Set kind afe ch value data s t) (hch : ch < 40) (hmap : Chunker.afeBoard2PLMap (ch / 8) = some afe)
    (hvalue : data &&& 0xFFF = value) (hhalf : data &&& 0xFFFF = data) (haddress : addressOf data = ch % 8 % 4) :
    Coherent t := by
  obtain ⟨w, hwrites, haddr, hown, hcomp⟩ := ht.word
  have hidx : ch % 8 < 8 := Nat.mod_lt _ (by decide)
  have hset : ∀ k a i, t.driver.channelValues k a i =
      if k = kind ∧ a = afe ∧ i = ch % 8 then data else s.driver.channelValues k a i := by
    intro k a i
    rw [ht.values]
    rfl
  have hpair : pairOf w.word = ch % 8 % 4 := by
    rw [pairOf_eq hidx, hown, hhalf, hcomp, hs.half, haddress]
    rcases hs.address kind afe ((ch % 8 + 4) % 8) (Nat.mod_lt _ (by decide)) with hzero | hcompAddress
    · rw [hzero]
      exact Nat.max_eq_left (Nat.zero_le _)
    · rw [hcompAddress]
      omega
  refine ⟨fun k c a hc hcmap => ?_, fun k a i => ?_, fun k a i hi => ?_, fun k a ha i hi => ?_⟩
  · -- Two channels with one half are the same channel.
    rw [Daphne.stateValue, ht.state, hset]
    by_cases hkey : channelKey k c = channelKey kind ch
    · obtain ⟨rfl, rfl⟩ := channelKey_inj hkey
      rw [hcmap] at hmap
      cases hmap
      rw [Function.update_self, if_pos ⟨rfl, rfl, rfl⟩, hvalue]
      rfl
    · rw [Function.update_of_ne hkey, if_neg]
      · exact hs.kept k c a hc hcmap
      · rintro ⟨rfl, rfl, hmod⟩
        have hdiv := afeBoard2PLMap_inj hcmap hmap
        exact hkey (by rw [show c = ch by omega])
  · rw [hset]
    split
    · exact hhalf
    · exact hs.half k a i
  · rw [hset]
    split
    · rename_i h
      exact Or.inr (by rw [haddress, h.2.2])
    · exact hs.address k a i hi
  · rw [hwrites, lastWord_append haddr, hset, hpair]
    by_cases hsame : k = kind ∧ a = afe
    · obtain ⟨rfl, rfl⟩ := hsame
      by_cases hi' : i = ch % 8
      · rw [if_pos ⟨rfl, rfl, by rw [hi']⟩, if_pos ⟨rfl, rfl, hi'⟩, hi']
        exact hown.trans hhalf
      · by_cases hcomp' : i = (ch % 8 + 4) % 8
        · rw [if_pos ⟨rfl, rfl, by omega⟩, if_neg (fun h => hi' h.2.2), hcomp']
          exact hcomp.trans (hs.half k a _)
        · rw [if_neg (fun h => by omega), if_neg (fun h => hi' h.2.2)]
          exact hs.sent k a ha i hi
    · rw [if_neg (fun h => hsame ⟨h.1, h.2.1⟩), if_neg (fun h => hsame ⟨h.1, h.2.1⟩)]
      exact hs.sent k a ha i hi

theorem channelData_spec {idx : Nat} (hidx : idx < 8) {value : UInt32} (hvalue : value ≤ 4095) (gain : Bool) :
    channelData idx value gain false &&& 0xFFF = value ∧
      channelData idx value gain false &&& 0xFFFF = channelData idx value gain false ∧
      addressOf (channelData idx value gain false) = idx % 4 := by
  have hchip : (mapped idx).2 < 4 := by
    rw [mapped_eq hidx]
    exact Nat.mod_lt _ (by decide)
  have hlt : value < 0x1000 := by
    rw [UInt32.lt_iff_toNat_lt]
    exact Nat.lt_succ_of_le (UInt32.le_iff_toNat_le.mp hvalue)
  refine ⟨?_, channelData_half ⟨value, gain, false⟩ hchip, ?_⟩
  · exact congrArg Setting.value (settingOf_channelData ⟨value, gain, false⟩ hchip hlt)
  · rw [addressOf_channelData ⟨value, gain, false⟩ hchip, mapped_eq hidx]

theorem wp_setChannel (kind : Kind) {ch afe : Nat} (hch : ch < 40) (hmap : Chunker.afeBoard2PLMap (ch / 8) = some afe)
    (value : UInt32) (gain : Bool) (s : ServerState) : wp (setChannel b kind afe (ch % 8) ch value gain)
      (fun _ t => Set kind afe ch value (channelData (ch % 8) value gain false) s t) (fun e _ => e = Spi.timeout) s := by
  have hafe := afeBoard2PLMap_lt hmap
  obtain ⟨word, hown, hcomp, hsends⟩ := updateCurrentRegister_sends b.env kind hafe
    (Nat.mod_lt ch (by decide : 0 < 8)) value gain false (s.withDriver s.driver.channelValues)
  refine wp_bind.mpr (wp_zoom.mpr ?_)
  rw [wp, hsends]
  refine wp_mono (Spi.wp_setData_mapped b.faults_none _ _ _) (fun _ t ht => ?_) fun _ _ h => h
  obtain ⟨old, reads, -, -, hwrites⟩ := ht.write
  have hfull : ∀ old, (registerData kind afe).insert old word = word := fun old => by
    cases kind <;> exact Spi.insert_all rfl rfl old word
  have hstate (key : StateKey) (hkey : key = channelKey kind ch) :
      wp (Daphne.checkChannel ch (Daphne.setState key value))
        (fun _ t => Set kind afe ch value (channelData (ch % 8) value gain false) s t) (fun e _ => e = Spi.timeout)
        (t.withDriver { s.driver with channelValues := t.driver }) := by
    rw [Daphne.checkChannel, if_neg (by omega), hkey]
    refine ⟨ht.driver, rfl, _, hwrites, rfl, ?_, ?_⟩
    · rw [hfull]
      exact hown
    · rw [hfull]
      exact hcomp
  cases kind
  · exact hstate _ rfl
  · exact hstate _ rfl

/-! ### Runs -/

/-- What is kept or sent for the channels. -/
def view (d : Daphne) : ChannelValues × (Kind → Nat → Option UInt32) :=
  (d.channelValues, fun kind ch => d.state (channelKey kind ch))

theorem Coherent.of_apart (h : Apart IsWord view s t) (hs : Coherent s) : Coherent t := by
  have hvalues : t.driver.channelValues = s.driver.channelValues := congrArg Prod.fst h.view_eq
  have hstate : ∀ kind ch, t.driver.state (channelKey kind ch) = s.driver.state (channelKey kind ch) := fun kind ch =>
    congrFun (congrFun (congrArg Prod.snd h.view_eq) kind) ch
  obtain ⟨ws, hws, hnot⟩ := h.writes
  have hlast : ∀ kind, ∀ afe < 5, ∀ p, lastWord kind afe p t.writes = lastWord kind afe p s.writes := by
    intro kind afe hafe p
    have hnone : (ws.reverse.find? fun w => w.address = (registerData kind afe).addr ∧ pairOf w.word = p) = none := by
      rw [List.find?_eq_none]
      intro w hw hfound
      exact hnot w (List.mem_reverse.mp hw) ⟨kind, afe, hafe, (of_decide_eq_true hfound).1⟩
    rw [lastWord, hws, List.reverse_append, List.find?_append, hnone, Option.none_or, lastWord]
  refine ⟨fun kind ch afe hch hmap => ?_, ?_, ?_, fun kind afe hafe idx hidx => ?_⟩
  · rw [Daphne.stateValue, hstate, hvalues]
    exact hs.kept kind ch afe hch hmap
  · rw [hvalues]
    exact hs.half
  · rw [hvalues]
    exact hs.address
  · rw [hlast kind afe hafe, hvalues]
    exact hs.sent kind afe hafe idx hidx

theorem avoidsLevels : AvoidsLevels IsWord view where
  chips chip := by
    rintro ⟨kind, afe, hafe, haddr⟩
    cases chip <;> cases kind <;> simp only [Chip.addr, registerData] at haddr <;> omega
  control := by
    rintro ⟨kind, afe, hafe, haddr⟩
    cases kind <;> simp only [dacGainBiasControlGo, registerData] at haddr <;> omega
  enable := by
    rintro ⟨kind, afe, hafe, haddr⟩
    cases kind <;> simp only [biasEnable, registerData] at haddr <;> omega
  gains d afe value := by
    refine Prod.ext rfl (funext fun kind => funext fun ch => Function.update_of_ne ?_ _ _)
    cases kind <;> simp [channelKey]
  biases d afe value := by
    refine Prod.ext rfl (funext fun kind => funext fun ch => Function.update_of_ne ?_ _ _)
    cases kind <;> simp [channelKey]
  hv d value := by
    refine Prod.ext rfl (funext fun kind => funext fun ch => Function.update_of_ne ?_ _ _)
    cases kind <;> simp [channelKey]

theorem avoidsAfes : AvoidsAfes IsWord view where
  words afe' _ := by
    rintro ⟨kind, afe, hafe, haddr⟩
    cases kind <;> simp only [Afe.afeControl, registerData] at haddr <;> omega
  regs d afe reg value := by
    refine Prod.ext rfl (funext fun kind => funext fun ch => Function.update_of_ne ?_ _ _)
    cases kind <;> simp [channelKey]

theorem avoidsControls : AvoidsControls b IsWord where
  power _ := by
    rintro ⟨kind, afe, hafe, haddr⟩
    cases kind <;> simp only [Afe.afeGlobalControlReset, registerData] at haddr <;> omega
  triggers a ha := by
    rintro ⟨kind, afe, hafe, haddr⟩
    cases kind <;> simp only [registerData] at haddr <;> omega

theorem maintains_setChannel (kind : Kind) (ch afe : Nat) (value : UInt32) (gain : Bool) (hch : ch < 40)
    (hmap : Chunker.afeBoard2PLMap (ch / 8) = some afe) (hvalue : value ≤ 4095) :
    Maintains (· = Spi.timeout) Coherent (setChannel b kind afe (ch % 8) ch value gain) := by
  refine ⟨fun s hs => wp_mono (wp_setChannel kind hch hmap value gain s) (fun _ t ht => ?_) fun _ _ he hne => absurd he hne⟩
  obtain ⟨hlow, hhalf, haddress⟩ := channelData_spec (Nat.mod_lt ch (by decide : 0 < 8)) hvalue gain
  exact hs.set ht hch hmap hlow hhalf haddress

theorem survives : Survives b (· = Spi.timeout) Coherent where
  channels := maintains_setChannel
  gains afe _ value _ := .of_does (avoidsLevels.setGain afe value) fun _ _ => Coherent.of_apart
  biases afe _ value _ := .of_does (avoidsLevels.setBias afe value) fun _ _ => Coherent.of_apart
  hv value _ enable := .of_does (avoidsLevels.setBiasControl value enable) fun _ _ => Coherent.of_apart

theorem maintains_configureChannel {config : ChannelConfig} (htrim : config.trim ≤ 4095) (hoffset : config.offset ≤ 4095) :
    Maintains (· = Spi.timeout) Coherent (configureChannel b config) := by
  unfold configureChannel
  split
  · exact maintains_throw _
  · rename_i hid
    have hch : config.id.toNat < 40 := Nat.lt_succ_of_le (UInt32.le_iff_toNat_le.mp (UInt32.not_lt.mp hid))
    refine maintains_afePL_bind fun afe _ hmap => ?_
    exact (maintains_setChannel .trim _ afe _ false hch hmap htrim).bind fun _ =>
      maintains_setChannel .offset _ afe _ false hch hmap hoffset

/-- A configuration whose first channel is not there sets no channel. -/
theorem does_configureDaphne {cfg : ConfigureRequest} {config : ChannelConfig} (hhead : config ∈ cfg.channels.head?)
    (hid : config.id > 39) : Does (.apart IsWord view) (configureDaphne b cfg) := by
  obtain ⟨configs, hchannels⟩ : ∃ configs, cfg.channels = config :: configs := by
    cases hlist : cfg.channels with
    | nil => simp [hlist] at hhead
    | cons first rest =>
      rw [hlist, List.head?_cons, Option.mem_some_iff] at hhead
      exact ⟨rest, by rw [hhead]⟩
  have hthrow : cfg.channels.forM (configureChannel b) = throw ("Channel out of range (0..39): " ++ toString config.id) := by
    rw [hchannels]
    refine forM_throw ?_
    rw [configureChannel, if_pos hid]
  have hprog : configureDaphne b cfg = (configureReset b >>= fun _ => SelfTrigger.writeTriggerThresholds b.mapFails cfg >>= fun _ =>
      SelfTrigger.writeSelfTriggerControls b.mapFails cfg >>= fun _ =>
        throw ("Channel out of range (0..39): " ++ toString config.id)) := by
    simp only [configureDaphne, configureBoard, hthrow, bind_assoc]
    rfl
  rw [hprog]
  exact avoidsControls.configureReset.bind fun _ => (avoidsControls.writeTriggerThresholds cfg).bind fun _ =>
    (avoidsControls.writeSelfTriggerControls cfg).bind fun _ => does_throw _

theorem Coherent.step (hs : Coherent s) {r : Request} (hrange : r.ConfiguresInRange) (hthrows : ¬r.Throws b Spi.timeout s) :
    Coherent (r.step b s) := by
  refine Request.step_of_wp (P := Coherent) (survives.request hs (fun cfg hr => ?_) (fun afe reg value _ => ?_)
    fun afe function value _ => ?_) hthrows
  · subst hr
    rcases hrange with hfit | ⟨config, hhead, hid⟩
    · refine (survives.configureDaphne (fun _ _ => Coherent.of_apart) avoidsControls avoidsAfes fun config hconfig => ?_).run s hs
      exact maintains_configureChannel (hfit config hconfig).1 (hfit config hconfig).2
    · exact (Maintains.of_does (does_configureDaphne hhead hid) fun _ _ => Coherent.of_apart).run s hs
  · exact (Maintains.of_does (avoidsAfes.writeAFERegister afe reg value) fun _ _ => Coherent.of_apart).run s hs
  · exact (Maintains.of_does (avoidsAfes.writeAFEFunction afe function value) fun _ _ => Coherent.of_apart).run s hs

theorem Coherent.start (cells : Nat → UInt32) (reads : Nat → Nat) (accesses : Nat) :
    Coherent (.start cells reads accesses) where
  kept kind _ _ _ _ := by
    cases kind <;> exact UInt32.zero_and.symm
  half _ _ _ := UInt32.zero_and
  address _ _ _ _ := Or.inl rfl
  sent _ _ _ _ _ := rfl

/-! ### The answers -/

theorem Coherent.encoded_eq (hs : Coherent s) {kind : Kind} {ch : Nat} (hch : ch < 40) :
    (encoded kind ch s.writes).getD 0 = s.driver.stateValue (channelKey kind ch) := by
  have hmap : ∃ afe, Chunker.afeBoard2PLMap (ch / 8) = some afe := by
    have h : ∀ board < 5, (Chunker.afeBoard2PLMap board).isSome := by decide
    exact Option.isSome_iff_exists.mp (h (ch / 8) (by omega))
  obtain ⟨afe, hmap⟩ := hmap
  have hsent := hs.sent kind afe (afeBoard2PLMap_lt hmap) (ch % 8) (Nat.mod_lt _ (by decide))
  rw [show ch % 8 % 4 = ch % 4 by omega] at hsent
  rw [hs.kept kind ch afe hch hmap, ← hsent, encoded, hmap, Option.bind_some]
  cases lastWord kind afe (ch % 4) s.writes with
  | none => exact UInt32.zero_and.symm
  | some word => rfl

theorem getChDictValue_ok {kind : Kind} {ch : Nat} (hch : ch < 40) (s : ServerState) :
    getChDictValue kind ch s = .ok (s.driver.stateValue (channelKey kind ch)) s := by
  have hcheck : Daphne.checkChannel ch (Daphne.getState (channelKey kind ch)) s =
      .ok (s.driver.stateValue (channelKey kind ch)) s := by
    rw [Daphne.checkChannel, if_neg (by omega)]
    rfl
  cases kind <;> exact hcheck

theorem Coherent.answersEncoded (hs : Coherent s) : AnswersEncoded s where
  single kind ch hch := by
    have hlt : ch.toNat < 40 := UInt32.lt_iff_toNat_lt.mp hch
    rw [hs.encoded_eq hlt]
    exact getChDictValue_ok hlt s
  all kind := by
    refine mapM_ok fun ch hch => ?_
    rw [hs.encoded_eq (List.mem_range.mp hch)]
    exact getChDictValue_ok (List.mem_range.mp hch) s
  afe kind afeBlock hblock := by
    have hle : afeBlock.toNat ≤ 4 := UInt32.le_iff_toNat_le.mp hblock
    rw [readAllAFE, if_neg (UInt32.not_lt.mpr hblock)]
    refine mapM_ok fun idx hidx => ?_
    have hlt := List.mem_range.mp hidx
    rw [hs.encoded_eq (by omega)]
    exact getChDictValue_ok (by omega) s

theorem Untouched.of_apart (h : Apart IsWord view s t) : Untouched s t where
  kept kind ch := congrFun (congrFun (congrArg Prod.snd h.view_eq) kind) ch
  words := h.writes

/-- A handler that throws at its first check changes nothing. -/
theorem Untouched.of_throw {r : Request} {e : String} (h : r.prog b s = .error e s) : Untouched s (r.step b s) := by
  have hstep : r.step b s = s := by
    rw [Request.step, Request.handle, rethrow, h]
  rw [hstep]
  exact ⟨fun _ _ => rfl, [], by simp, by simp⟩

theorem untouched_of_namesLarge {r : Request} (hlarge : r.NamesLarge) (hrange : r.ConfiguresInRange)
    (hthrows : ¬r.Throws b Spi.timeout s) : Untouched s (r.step b s) := by
  have hthrow {α : Type} {m : Prog Nat UInt32 Daphne α} {e : String} (hm : m = throw e) (f : α → Response) :
      (m >>= fun a => pure (f a)) s = .error e s := by
    rw [hm]
    rfl
  cases r with
  | configure cfg =>
    obtain ⟨config, hconfig, hlarge⟩ := hlarge
    rcases hrange with hfit | ⟨first, hhead, hid⟩
    · obtain ⟨htrim, hoffset⟩ := hfit config hconfig
      rcases hlarge with h | h
      · exact absurd htrim (UInt32.not_le.mpr h)
      · exact absurd hoffset (UInt32.not_le.mpr h)
    · refine Request.step_of_wp (P := Untouched s) (wp_bind.mpr ?_) hthrows
      exact wp_mono ((does_configureDaphne hhead hid).run s) (fun _ _ ht => Untouched.of_apart ht)
        fun _ _ ht _ => Untouched.of_apart ht
  | writeTrimSingleChannel ch value gain | writeOffsetSingleChannel ch value gain => exact .of_throw (hthrow (if_pos hlarge) _)
  | writeTrimAllChannels value gain | writeOffsetAllChannels value gain => exact .of_throw (hthrow (if_pos hlarge) _)
  | writeTrimAllAFE afe value gain | writeOffsetAllAFE afe value gain => exact .of_throw (hthrow (if_pos hlarge) _)
  | _ => exact hlarge.elim

/-- In every run whose configurations are in range, the read requests answer with the values in the words, and a request
with a value that does not fit changes nothing. -/
theorem answersEncoded_of_reached
    (h : Reached b (fun r s => r.ConfiguresInRange ∧ ¬r.Throws b Spi.timeout s) s) : AnswersEncoded s ∧
      ∀ r : Request, r.NamesLarge → r.ConfiguresInRange → ¬r.Throws b Spi.timeout s → Untouched s (r.step b s) := by
  have hs : Coherent s := h.invariant Coherent.start fun _ _ hs hr => hs.step hr.1 hr.2
  exact ⟨hs.answersEncoded, fun _ => untouched_of_namesLarge⟩

/-- A trim of channel 9, which is of the AFE with the PL index 4. -/
def smallTrim : Request := .writeTrimSingleChannel 9 100 true

theorem smallTrim_answersEncoded : AnswersEncoded (smallTrim.step .idle .fresh) ∧
    ∀ r : Request, r.NamesLarge → r.ConfiguresInRange → ¬r.Throws .idle Spi.timeout (smallTrim.step .idle .fresh) →
      Untouched (smallTrim.step .idle .fresh) (r.step .idle (smallTrim.step .idle .fresh)) :=
  answersEncoded_of_reached (.step (.start _ _ _) ⟨trivial, Request.not_throws (by decide +kernel) _⟩)

/-- A configuration with a trim of 5000, whose bias control is skipped. -/
def largeTrim : Request := .configure { channels := [⟨0, 5000, 0⟩], biasctrl := 5000 }

theorem largeTrim_not_answersEncoded :
    Reached .idle (fun r s => ¬r.Throws .idle Spi.timeout s) (largeTrim.step .idle .fresh) ∧
      ¬AnswersEncoded (largeTrim.step .idle .fresh) ∧ largeTrim.NamesLarge ∧ ¬Untouched .fresh (largeTrim.step .idle .fresh) := by
  have hkept : (largeTrim.step .idle .fresh).driver.state (.channelTrim 0) = some 5000 := by decide +kernel
  have hencoded : encoded .trim 0 (largeTrim.step .idle .fresh).writes = some 904 := by decide +kernel
  refine ⟨.step (.start _ _ _) (Request.not_throws (by decide +kernel) _), fun h => ?_, ?_, fun h => ?_⟩
  · have hread := h.single .trim 0 (by decide)
    rw [readSingleChannel, getChDictValue_ok (by decide), channelKey, Daphne.stateValue, UInt32.toNat_zero, hkept,
      hencoded] at hread
    have : (5000 : UInt32) = 904 := (EStateM.Result.ok.inj hread).1
    exact absurd this (by decide)
  · exact ⟨⟨0, 5000, 0⟩, List.mem_singleton.mpr rfl, Or.inl (by decide)⟩
  · have hsame := h.kept .trim 0
    rw [channelKey, hkept] at hsame
    cases hsame

end TrimOffset
end DaphneZmq
