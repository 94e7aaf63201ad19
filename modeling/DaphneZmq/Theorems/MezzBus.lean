import DaphneZmq.MezzBus

/-! # Each access reaches its block

The driver selects the block anew in front of each access, and all that uses the bus is in the mutex. So between the
transaction that selects the block and the one that relies on it there is none of the other thread, and between the read and
the write of an update there is no other write. -/

namespace DaphneZmq
open Lib.Threads

namespace MezzBus
open HdMezz (Rail Answer switched railBit)

/-! ### Updates -/

/-- Two words have the same bits where `bits` has ones. -/
def Agree (bits a b : UInt16) : Prop := a &&& bits = b &&& bits

/-- The bits of the register that an update of it leaves: those beside the bit of a rail or beside the field of a function. -/
def Register.Leaves (reg : Register) (bits : UInt16) : Prop := match reg.chip with
  | .tca9536 => reg.addr = 0x1 ∧ ∃ rail, bits = (~~~railBit rail).toUInt16
  | .ina232 _ => ∃ f : INA232Function, f.bitField.registerAddr = reg.addr ∧ bits = ~~~f.bitField.mask

/-- `TCA9536_CONF_REG`, which is written as a whole. -/
def Register.Whole (reg : Register) : Prop := reg.chip = .tca9536 ∧ reg.addr = 0x3

theorem agree_replaced (field : BitField) (register_value value : UInt16) :
    Agree (~~~field.mask) (field.replaced register_value value) register_value := by
  unfold Agree BitField.replaced
  rw [← UInt16.toBitVec_inj]
  ext i hi
  simp only [UInt16.toBitVec_and, UInt16.toBitVec_or, UInt16.toBitVec_not, BitVec.getElem_and, BitVec.getElem_or, BitVec.getElem_not]
  grind

/-- Of the bits that `a` has from `b`, those that `b` has from `c`. -/
theorem Agree.trans {bits bits' a b c : UInt16} (h : Agree bits a b) (h' : Agree bits' b c) : Agree (bits' &&& bits) a c := by
  unfold Agree at *
  calc a &&& (bits' &&& bits) = (a &&& bits) &&& bits' := by rw [UInt16.and_comm bits', UInt16.and_assoc]
    _ = (b &&& bits') &&& bits := by rw [h, UInt16.and_assoc, UInt16.and_comm bits, UInt16.and_assoc]
    _ = c &&& (bits' &&& bits) := by rw [h', UInt16.and_assoc]

theorem agree_toUInt16 {bits a : UInt8} {value : UInt16} (h : a &&& bits = value.toUInt8 &&& bits) :
    Agree bits.toUInt16 a.toUInt16 value := by
  rw [← UInt8.toBitVec_inj] at h
  unfold Agree
  rw [← UInt16.toBitVec_inj]
  ext i hi
  have hbit := congrArg (·.getLsbD i) h
  simp only [UInt8.toBitVec_and, UInt16.toBitVec_toUInt8, BitVec.getLsbD_and, BitVec.getLsbD_setWidth] at hbit
  simp only [UInt16.toBitVec_and, UInt8.toBitVec_toUInt16, BitVec.getElem_and, BitVec.getElem_setWidth, hbit]
  by_cases hlow : i < 8
  · rw [decide_eq_true hlow, Bool.true_and]
    rfl
  · have hnone : bits.toBitVec.getLsbD i = false := BitVec.getLsbD_of_ge _ _ (by omega)
    rw [hnone, Bool.and_false, Bool.and_false]

theorem agree_switched (output_port : UInt16) (powerOn : Bool) (rail : Rail) :
    Agree (~~~railBit rail).toUInt16 (switched output_port.toUInt8 rail powerOn).toUInt16 output_port := by
  refine agree_toUInt16 ?_
  unfold switched
  rw [← UInt8.toBitVec_inj]
  ext i hi
  cases powerOn
  · simp
  · simp
    grind

/-! ### What a thread in the mutex knows -/

/-- What the switch selects, what the last `fetch` would be answered with, and what the last `fetch` gave. -/
structure Known where
  switch : Option UInt8 := none
  pointed : Option Register := none
  value : Option (Register × UInt16) := none

def Known.Selected (known : Known) (afeBlock : Nat) : Prop :=
  ∃ switch, known.switch = some switch ∧ HDMezzExpanderEncoder[afeBlock]? = some switch

/-- The register is written as a whole, or its value is the one that was fetched last and the word leaves the bits beside a field. -/
def Register.Takes (reg : Register) (word : UInt16) (value : Option (Register × UInt16)) : Prop :=
  reg.Whole ∨ ∃ fetched bits, value = some (reg, fetched) ∧ reg.Leaves bits ∧ Agree bits word fetched

def Known.next (known : Known) : (o : Op) → o.Res → Known
  | .transact _, .error _ => {}
  | .transact (.select switch), .ok _ => { known with switch := some switch, pointed := none }
  | .transact (.point reg), .ok _ => { known with pointed := some reg }
  | .transact (.fetch reg), .ok value => { known with value := some (reg, value) }
  | .transact (.store _ _), .ok _ => { switch := known.switch }
  | _, _ => known

/-- Without the mutex a thread only loads atomics; in it, it keeps to what it knows. -/
def rules : Discipline Op Op.Res Known where
  free o := o = .load
  taken := {}
  allows known
    | .transact (.point reg) => known.Selected reg.afeBlock
    | .transact (.fetch reg) => known.Selected reg.afeBlock ∧ known.pointed = some reg
    | .transact (.store reg word) => known.Selected reg.afeBlock ∧ reg.Takes word known.value
    | _ => True
  next := Known.next

variable {kept : Chip → UInt8 → UInt16} {hd : Bool} {t : Thread} {known : Known} {s s' : Shared} {α β : Type}

/-! ### What the log says -/

def Entry.Is (t : Thread) (transaction : Transaction) (result : Except String transaction.Given) (e : Entry) : Prop :=
  ∃ before, e = ⟨t, transaction, result, before⟩

def Transaction.Selects : Transaction → Prop
  | .select _ => True
  | _ => False

def Transaction.Stores : Transaction → Prop
  | .store _ _ => True
  | _ => False

def Transaction.register : Transaction → Option Register
  | .select _ => none
  | .point reg | .fetch reg | .store reg _ => some reg

/-- The thread has selected the block; since then all transactions are its own and none selects. -/
def SelectedBy (t : Thread) (afeBlock : Nat) : List Entry → Prop :=
  Since (fun x => x.thread = t ∧ ¬x.transaction.Selects)
    fun x => ∃ switch, HDMezzExpanderEncoder[afeBlock]? = some switch ∧ x.Is t (.select switch) (.ok ())

/-- The thread has read the value from the register; since then all transactions are its own and none writes. -/
def ReadBy (t : Thread) (reg : Register) (value : UInt16) : List Entry → Prop :=
  Since (fun x => x.thread = t ∧ ¬x.transaction.Stores) fun x => x.Is t (.fetch reg) (.ok value)

/-- An access reaches the block of its register and no other, and a write of a part of a register leaves all other bits as they are. -/
structure Isolated (kept : Chip → UInt8 → UInt16) (e : Entry) (earlier : List Entry) : Prop where
  reached : ∀ reg, e.transaction.register = some reg → ∀ afeBlock, e.before.connected afeBlock = true ↔ afeBlock = reg.afeBlock
  selected : ∀ reg, e.transaction.register = some reg → SelectedBy e.thread reg.afeBlock earlier
  fetched : ∀ reg, e.transaction = .fetch reg → e.before.pointer reg.afeBlock reg.chip = reg.addr
  updated : ∀ reg word, e.transaction = .store reg word → ¬reg.Whole → ∃ value bits,
    ReadBy e.thread reg value earlier ∧ reg.Leaves bits ∧ Agree bits word value ∧
      Agree (kept reg.chip reg.addr &&& bits) word (e.before.cells reg)

/-- What is known in the mutex, as facts about the bus and the log. -/
structure Knows (kept : Chip → UInt8 → UInt16) (t : Thread) (known : Known) (s : Shared) : Prop where
  switch : ∀ switch, known.switch = some switch → s.bus.switch = switch ∧
    Since (fun x => x.thread = t ∧ ¬x.transaction.Selects) (Entry.Is t (.select switch) (.ok ())) s.log
  pointed : ∀ reg, known.pointed = some reg → s.bus.pointer reg.afeBlock reg.chip = reg.addr
  value : ∀ reg value, known.value = some (reg, value) → Agree (kept reg.chip reg.addr) value (s.bus.cells reg) ∧ ReadBy t reg value s.log

def AllIsolated (kept : Chip → UInt8 → UInt16) (s : Shared) : Prop := ∀ e earlier, e :: earlier <:+ s.log → Isolated kept e earlier

theorem AllIsolated.logged (h : AllIsolated kept s) {transaction : Transaction} {result : Except String transaction.Given} {bus : Bus}
    (he : Isolated kept ⟨t, transaction, result, s.bus⟩ s.log) : AllIsolated kept (s.logged t transaction result bus) := by
  intro e earlier hsuffix
  rcases List.suffix_cons_iff.mp hsuffix with heq | hsuffix
  · cases heq
    exact he
  · exact h e earlier hsuffix

theorem toNat_encoder {afeBlock : Nat} {switch : UInt8} (h : HDMezzExpanderEncoder[afeBlock]? = some switch) :
    switch.toNat = 2 ^ afeBlock := by
  match afeBlock, h with
  | 0, h | 1, h | 2, h | 3, h | 4, h =>
    cases h
    rfl

/-- The words of the encoder connect one block. -/
theorem Knows.connected (h : Knows kept t known s) {afeBlock : Nat} (hselected : known.Selected afeBlock) (j : Nat) :
    s.bus.connected j = true ↔ j = afeBlock := by
  obtain ⟨switch, hswitch, hencoder⟩ := hselected
  unfold Bus.connected
  rw [(h.switch switch hswitch).1, toNat_encoder hencoder, Nat.testBit_two_pow, decide_eq_true_eq]
  exact eq_comm

theorem Knows.selectedBy (h : Knows kept t known s) {afeBlock : Nat} (hselected : known.Selected afeBlock) :
    SelectedBy t afeBlock s.log := by
  obtain ⟨switch, hswitch, hencoder⟩ := hselected
  obtain ⟨-, after, e, before, hlog, he, hafter⟩ := h.switch switch hswitch
  exact ⟨after, e, before, hlog, ⟨switch, hencoder, he⟩, hafter⟩

/-- A transaction that the rules allow is isolated. -/
theorem Knows.isolated (h : Knows kept t known s) {transaction : Transaction} {result : Except String transaction.Given}
    (hallowed : rules.allows known (.transact transaction)) : Isolated kept ⟨t, transaction, result, s.bus⟩ s.log := by
  cases transaction with
  | select switch => exact ⟨nofun, nofun, nofun, nofun⟩
  | point reg =>
    refine ⟨fun reg' heq => ?_, fun reg' heq => ?_, nofun, nofun⟩ <;> cases heq
    · exact h.connected hallowed
    · exact h.selectedBy hallowed
  | fetch reg =>
    obtain ⟨hselected, hpointed⟩ := hallowed
    refine ⟨fun reg' heq => ?_, fun reg' heq => ?_, fun reg' heq => ?_, nofun⟩ <;> cases heq
    · exact h.connected hselected
    · exact h.selectedBy hselected
    · exact h.pointed reg hpointed
  | store reg word =>
    obtain ⟨hselected, hword⟩ := hallowed
    refine ⟨fun reg' heq => ?_, fun reg' heq => ?_, nofun, fun reg' word' heq hpart => ?_⟩ <;> cases heq
    · exact h.connected hselected
    · exact h.selectedBy hselected
    · rcases hword with hwhole | ⟨value, bits, hvalue, hleaves, hagree⟩
      · exact absurd hwhole hpart
      · obtain ⟨hcell, hread⟩ := h.value reg value hvalue
        exact ⟨value, bits, hread, hleaves, hagree, hagree.trans hcell⟩

/-- A transaction of the thread that does not select leaves the switch. -/
theorem Knows.switch_logged (h : Knows kept t known s) {transaction : Transaction} (hselects : ¬transaction.Selects)
    {result : Except String transaction.Given} {bus : Bus} (hbus : bus.switch = s.bus.switch) (switch : UInt8)
    (hknown : known.switch = some switch) : (s.logged t transaction result bus).bus.switch = switch ∧
      Since (fun x => x.thread = t ∧ ¬x.transaction.Selects) (Entry.Is t (.select switch) (.ok ()))
        (s.logged t transaction result bus).log := by
  obtain ⟨hswitch, hsince⟩ := h.switch switch hknown
  exact ⟨hbus.trans hswitch, hsince.later ⟨rfl, hselects⟩⟩

/-- A transaction of the thread that does not write leaves what was fetched. -/
theorem Knows.value_logged (h : Knows kept t known s) {transaction : Transaction} (hstores : ¬transaction.Stores)
    {result : Except String transaction.Given} {bus : Bus} (hbus : bus.cells = s.bus.cells) (reg : Register) (value : UInt16)
    (hknown : known.value = some (reg, value)) : Agree (kept reg.chip reg.addr) value ((s.logged t transaction result bus).bus.cells reg) ∧
      ReadBy t reg value (s.logged t transaction result bus).log := by
  obtain ⟨hcell, hread⟩ := h.value reg value hknown
  exact ⟨(congrFun hbus reg) ▸ hcell, hread.later ⟨rfl, hstores⟩⟩

theorem Knows.next (h : Knows kept t known s) {o : Op} {r : o.Res} (hallowed : rules.allows known o) (hexec : Exec kept t s o r s') :
    Knows kept t (known.next o r) s' := by
  cases hexec with
  | failed what bus => exact ⟨nofun, nofun, nofun⟩
  | @select switch =>
    refine ⟨fun switch' heq => ?_, nofun, h.value_logged id rfl⟩
    cases heq
    exact ⟨rfl, Since.now ⟨s.bus, rfl⟩⟩
  | @point reg =>
    refine ⟨h.switch_logged id rfl, fun reg' heq => ?_, h.value_logged id rfl⟩
    cases heq
    exact if_pos ⟨(h.connected hallowed reg.afeBlock).mpr rfl, rfl⟩
  | @fetch reg value hvalue =>
    obtain ⟨hselected, hpointed⟩ := hallowed
    refine ⟨h.switch_logged id rfl, h.pointed, fun reg' value' heq => ?_⟩
    cases heq
    have hcell := hvalue reg.afeBlock (h.connected hselected)
    rw [h.pointed reg hpointed] at hcell
    exact ⟨hcell, Since.now ⟨s.bus, rfl⟩⟩
  | @store reg word => exact ⟨h.switch_logged id rfl, nofun, nofun⟩
  | members => exact h
  | update f => exact ⟨h.switch, h.pointed, h.value⟩
  | load => exact h

theorem AllIsolated.exec (hs : AllIsolated kept s) (h : Knows kept t known s) {o : Op} {r : o.Res} (hallowed : rules.allows known o)
    (hexec : Exec kept t s o r s') : AllIsolated kept s' := by
  cases hexec with
  | failed what bus => exact hs.logged (h.isolated hallowed)
  | select => exact hs.logged (h.isolated hallowed)
  | point => exact hs.logged (h.isolated hallowed)
  | fetch value hvalue => exact hs.logged (h.isolated hallowed)
  | store => exact hs.logged (h.isolated hallowed)
  | members => exact hs
  | update f => exact hs
  | load => exact hs

theorem sound_rules : rules.Sound (Exec kept) (Knows kept) (AllIsolated kept) where
  taken _ _ _ := ⟨nofun, nofun, nofun⟩
  held _ _ _ _ _ _ hs h hallowed hexec := ⟨hs.exec h hallowed hexec, h.next hallowed hexec⟩
  free t s o r s' hs hfree hexec := by
    cases hfree
    cases hexec
    exact ⟨hs, fun _ _ => id⟩

/-! ### What a script in the mutex keeps to -/

/-- In the mutex, if `P` is known the script keeps to the rules, and `Q` is known of what it gives. -/
def Within (P : Known → Prop) (m : MezzScript α) (Q : α → Known → Prop) : Prop := ∀ known, P known →
  m.run.Safe rules (fun phase r => ∃ after, phase = .inside after ∧ ∀ a, r = .ok a → Q a after) (.inside known)

/-- The script keeps to the rules whatever is known. -/
abbrev Orderly (m : MezzScript α) : Prop := Within (fun _ => True) m fun _ _ => True

namespace Within
variable {P P' : Known → Prop} {m : MezzScript α} {Q Q' : α → Known → Prop} {f : α → MezzScript β} {R : β → Known → Prop}

theorem mono (h : Within P m Q) (hP : ∀ known, P' known → P known) (hQ : ∀ a known, Q a known → Q' a known) : Within P' m Q' :=
  fun known hknown => (h known (hP known hknown)).mono fun _ _ ⟨after, hphase, hr⟩ => ⟨after, hphase, fun a ha => hQ a after (hr a ha)⟩

theorem pure {a : α} (h : ∀ known, P known → Q a known) : Within P (pure a) Q := fun known hknown =>
  ⟨known, rfl, fun a' ha => by cases ha; exact h known hknown⟩

theorem throw {what : String} : Within P (throw what : MezzScript α) Q := fun known _ => ⟨known, rfl, nofun⟩

theorem bind (h : Within P m Q) (hf : ∀ a, Within (Q a) (f a) R) : Within P (m >>= f) R := fun known hknown =>
  (h known hknown).bind fun phase r ⟨after, hphase, hr⟩ => by
    subst hphase
    cases r with
    | ok a => exact hf a after (hr a rfl)
    | error what => exact ⟨after, rfl, nofun⟩

theorem rethrow {g : String → String} (h : Within P m Q) : Within P (MezzBus.rethrow g m) Q := fun known hknown =>
  (h known hknown).bind fun phase r ⟨after, hphase, hr⟩ => by
    subst hphase
    cases r with
    | ok a => exact ⟨after, rfl, fun a' ha => by cases ha; exact hr a rfl⟩
    | error what => exact ⟨after, rfl, nofun⟩

theorem transact {transaction : Transaction} {Q : transaction.Given → Known → Prop}
    (hallowed : ∀ known, P known → rules.allows known (.transact transaction))
    (hnext : ∀ known, P known → ∀ r, Q r (known.next (.transact transaction) (.ok r))) : Within P (transact transaction) Q :=
  fun known hknown => ⟨hallowed known hknown, fun r => by
    cases r with
    | ok r => exact ⟨_, rfl, fun a ha => by cases ha; exact hnext known hknown r⟩
    | error what => exact ⟨{}, rfl, nofun⟩⟩

theorem members {S : Members → Known → Prop} (h : ∀ known, P known → ∀ m, S m known) : Within P members S :=
  fun known hknown => ⟨trivial, fun _ => ⟨known, rfl, fun m _ => h known hknown m⟩⟩

end Within

namespace Orderly
variable {m : MezzScript α} {f : α → MezzScript β}

theorem pure {a : α} : Orderly (Pure.pure a) := Within.pure fun _ _ => trivial

theorem bind (h : Orderly m) (hf : ∀ a, Orderly (f a)) : Orderly (m >>= f) := Within.bind h hf

theorem members : Orderly members := Within.members fun _ _ _ => trivial

theorem update {g : Members → Members} : Orderly (update g) := fun known _ => ⟨trivial, fun _ => ⟨known, rfl, fun _ _ => trivial⟩⟩

theorem load : Orderly load := fun known _ => ⟨trivial, fun _ => ⟨known, rfl, fun _ _ => trivial⟩⟩

theorem forM {g : β → MezzScript Unit} (hg : ∀ b, Orderly (g b)) : ∀ l : List β, Orderly (l.forM g)
  | [] => pure
  | b :: l => (hg b).bind fun _ => forM hg l

end Orderly

/-! ### The driver -/

theorem within_selectAfeBlock (afeBlock : Nat) (V : Option (Register × UInt16) → Prop) : Within (fun known => V known.value)
    (selectAfeBlock afeBlock) fun _ known => known.Selected afeBlock ∧ V known.value := by
  unfold selectAfeBlock
  split
  · exact Within.throw
  · refine (Within.members fun known h _ => h).bind fun m => ?_
    split
    · exact Within.throw
    · split
      · rename_i switch hswitch
        exact Within.transact (fun _ _ => trivial) fun known h _ => ⟨⟨switch, rfl, hswitch⟩, h⟩
      · exact Within.throw

theorem within_readDevice (reg : Register) : Within (fun known => known.Selected reg.afeBlock) (readDevice reg)
    fun value known => known.value = some (reg, value) := by
  have hpoint : Within (fun known => known.Selected reg.afeBlock) (transact (.point reg))
      fun _ known => known.Selected reg.afeBlock ∧ known.pointed = some reg :=
    Within.transact (fun _ h => h) fun known h _ => ⟨h, rfl⟩
  exact hpoint.bind fun _ => Within.transact (fun _ h => h) fun known h value => rfl

theorem within_read (reg : Register) : Within (fun _ => True) (do selectAfeBlock reg.afeBlock; readDevice reg)
    fun value known => known.value = some (reg, value) :=
  (within_selectAfeBlock reg.afeBlock fun _ => True).bind fun _ => (within_readDevice reg).mono (fun _ h => h.1) fun _ _ h => h

theorem within_store (reg : Register) (word : UInt16) :
    Within (fun known => known.Selected reg.afeBlock ∧ reg.Takes word known.value) (transact (.store reg word))
      fun _ known => known.Selected reg.afeBlock :=
  Within.transact (fun _ h => h) fun _ h _ => h.1

theorem orderly_readINA232Function (afeBlock : Nat) (rail : Rail) (f : INA232Function) :
    Orderly (readINA232Function afeBlock rail f) :=
  (within_read ⟨afeBlock, .ina232 rail, f.bitField.registerAddr⟩).bind fun _ => Within.pure fun _ _ => trivial

theorem orderly_writeINA232Function (afeBlock : Nat) (rail : Rail) (f : INA232Function) (value : UInt16) :
    Orderly (writeINA232Function afeBlock rail f value) := by
  let reg : Register := ⟨afeBlock, .ina232 rail, f.bitField.registerAddr⟩
  refine (within_read reg).bind fun register_value => ?_
  have htakes : reg.Takes (f.bitField.replaced register_value value) (some (reg, register_value)) :=
    .inr ⟨register_value, _, rfl, ⟨f, rfl, rfl⟩, agree_replaced f.bitField register_value value⟩
  have hwrite : Within (fun known => known.value = some (reg, register_value))
      (writeINA232Register afeBlock rail f.bitField.registerAddr (f.bitField.replaced register_value value)) fun _ _ => True :=
    ((within_selectAfeBlock afeBlock _).mono (fun known h => h ▸ htakes) fun _ _ h => h).bind fun _ =>
      (within_store reg _).mono (fun _ h => h) fun _ _ _ => trivial
  refine hwrite.bind fun _ => (within_read reg).bind fun readback => ?_
  split
  · exact Within.throw
  · exact Within.pure fun _ _ => trivial

theorem within_readTCA9536Register (afeBlock : Nat) (addr : UInt8) : Within (fun _ => True) (readTCA9536Register afeBlock addr)
    fun value known => ∃ word : UInt16, word.toUInt8 = value ∧ known.value = some (⟨afeBlock, .tca9536, addr⟩, word) := by
  let reg : Register := ⟨afeBlock, .tca9536, addr⟩
  refine (within_selectAfeBlock afeBlock fun _ => True).bind fun _ => Within.bind (Q := fun value known => known.value = some (reg, value)) ?_ ?_
  · exact (within_readDevice reg).mono (fun _ h => h.1) fun _ _ h => h
  · exact fun word => Within.pure fun _ h => ⟨word, rfl, h⟩

theorem within_writeTCA9536Register (afeBlock : Nat) (addr value : UInt8) :
    Within (fun known => Register.Takes ⟨afeBlock, .tca9536, addr⟩ value.toUInt16 known.value)
      (writeTCA9536Register afeBlock addr value) fun _ _ => True := by
  let reg : Register := ⟨afeBlock, .tca9536, addr⟩
  refine (within_selectAfeBlock afeBlock (reg.Takes value.toUInt16)).bind fun _ => ?_
  refine (within_store reg value.toUInt16).bind fun _ => (within_readDevice reg).bind fun readback => ?_
  dsimp only
  split
  · exact Within.throw
  · exact Within.pure fun _ _ => trivial

theorem orderly_powerOn_HDMezzAfeBlock (afeBlock : Nat) (powerOn : Bool) (rail : Rail) :
    Orderly (powerOn_HDMezzAfeBlock afeBlock powerOn rail) := by
  let reg : Register := ⟨afeBlock, .tca9536, 0x1⟩
  refine (within_readTCA9536Register afeBlock 0x1).bind fun output_port => Within.rethrow ?_
  have htakes : ∀ known : Known, (∃ word : UInt16, word.toUInt8 = output_port ∧ known.value = some (reg, word)) →
      reg.Takes (switched output_port rail powerOn).toUInt16 known.value := by
    rintro known ⟨word, rfl, hvalue⟩
    exact .inr ⟨word, _, hvalue, ⟨rfl, rail, rfl⟩, agree_switched word powerOn rail⟩
  exact ((within_writeTCA9536Register afeBlock 0x1 _).mono htakes fun _ _ h => h).bind fun _ => Orderly.update

theorem orderly_configureINA232 (afeBlock : Nat) (rail : Rail) : Orderly (configureINA232 afeBlock rail) :=
  Orderly.members.bind fun _ => (orderly_writeINA232Function afeBlock rail .SHUNT_CAL _).bind fun _ => Orderly.members.bind fun _ =>
    (orderly_writeINA232Function afeBlock rail .LIMIT _).bind fun _ => (orderly_writeINA232Function afeBlock rail .LEN _).bind fun _ =>
    orderly_writeINA232Function afeBlock rail .POL _

theorem orderly_configureHdMezzAfeBlock (afeBlock : Nat) : Orderly (configureHdMezzAfeBlock afeBlock) := by
  refine (orderly_configureINA232 afeBlock .v5).bind fun _ => (orderly_configureINA232 afeBlock .v3v3).bind fun _ => ?_
  exact (within_writeTCA9536Register afeBlock 0x3 0xF0).mono (fun _ _ => .inl ⟨rfl, rfl⟩) fun _ _ h => h

/-- Most of the driver's functions check the block first. -/
theorem orderly_check {what : String} {m : MezzScript α} (h : Orderly m) (c : Prop) [Decidable c] :
    Orderly (if c then throw what else m) := by
  split
  · exact Within.throw
  · exact h

theorem orderly_isPowerOn (afeBlock : Nat) (rail : Rail) : Orderly (isPowerOn afeBlock rail) :=
  Orderly.members.bind fun _ => by cases rail <;> exact Orderly.pure

/-! ### The monitor -/

theorem orderly_latchAlert (i : Nat) (rail : Rail) : Orderly (latchAlert i rail) := by
  refine Orderly.load.bind fun m => ?_
  split
  · have hcheck : Orderly (checkAlertStatus i rail) := (orderly_readINA232Function i rail .AFF).bind fun _ => Orderly.pure
    exact hcheck.bind fun _ => Orderly.update
  · exact Orderly.pure

theorem orderly_loadEither (flag : Members → Rail → Nat → Bool) (i : Nat) : Orderly (loadEither flag i) := by
  refine Orderly.load.bind fun m => ?_
  split
  · exact Orderly.pure
  · exact Orderly.load.bind fun _ => Orderly.pure

theorem orderly_poweredInAlert (i : Nat) : Orderly (poweredInAlert i) := by
  refine (orderly_loadEither _ i).bind fun alert => ?_
  split
  · exact orderly_loadEither _ i
  · exact Orderly.pure

theorem orderly_monitorBlock (i : Nat) : Orderly (monitorBlock i) := by
  have henabled : Orderly (isAfeBlockEnabled i) := orderly_check (Orderly.members.bind fun _ => Orderly.pure) _
  have hpowered (rail : Rail) : Orderly (storePowered i rail) := (orderly_isPowerOn i rail).bind fun _ => Orderly.update
  have hvoltage (rail : Rail) : Orderly (storeVoltage i rail) :=
    ((orderly_readINA232Function i rail .VBUS).bind fun _ => Orderly.pure).bind fun _ => Orderly.update
  have hcurrent (rail : Rail) : Orderly (storeCurrent i rail) :=
    ((orderly_readINA232Function i rail .CURRENT).bind fun _ => Orderly.members.bind fun _ => Orderly.pure).bind fun _ => Orderly.update
  have hpower (rail : Rail) : Orderly (storePower i rail) :=
    ((orderly_readINA232Function i rail .POWER).bind fun _ => Orderly.members.bind fun _ => Orderly.pure).bind fun _ => Orderly.update
  refine henabled.bind fun enabled => ?_
  split
  · refine (hpowered .v5).bind fun _ => (hpowered .v3v3).bind fun _ => (hvoltage .v5).bind fun _ => (hcurrent .v5).bind fun _ =>
      (hvoltage .v3v3).bind fun _ => (hcurrent .v3v3).bind fun _ => (hpower .v5).bind fun _ => (hpower .v3v3).bind fun _ =>
      (orderly_latchAlert i .v5).bind fun _ => (orderly_latchAlert i .v3v3).bind fun _ =>
      (orderly_poweredInAlert i).bind fun off => ?_
    split
    · exact (orderly_powerOn_HDMezzAfeBlock i false .v5).bind fun _ => orderly_powerOn_HDMezzAfeBlock i false .v3v3
    · exact Orderly.pure
  · exact Orderly.pure

theorem job_monitorPass (hd : Bool) : (monitorPass hd).Job rules := by
  have hblocks : Orderly (if hd then (List.range 5).forM monitorBlock else pure ()) := by
    split
    · exact Orderly.forM orderly_monitorBlock _
    · exact Orderly.pure
  refine ⟨rfl, ?_, trivial⟩
  exact (hblocks _ trivial).bind fun phase r ⟨after, hphase, _⟩ => ⟨by rw [hphase]; exact id, trivial⟩

/-! ### The requests -/

/-- The script keeps to the rules without the mutex from a phase on, and does not have it in the end, whether it throws or not. -/
def Apart (phase : Phase Known) (m : MezzScript α) : Prop := m.run.Safe rules (fun phase _ => phase.Outside) phase

namespace Apart
variable {phase : Phase Known} {m : MezzScript α} {f : α → MezzScript β}

theorem pure {a : α} (h : phase.Outside) : Apart phase (Pure.pure a) := h

theorem throw {what : String} (h : phase.Outside) : Apart phase (throw what : MezzScript α) := h

theorem load {f : Members → MezzScript β} (h : phase.Outside) (hf : ∀ m, Apart .done (f m)) : Apart phase (load >>= f) := by
  cases phase with
  | waiting | done => exact ⟨rfl, hf⟩
  | inside => exact h.elim

theorem busGuard (h : Orderly m) : Apart .waiting (busGuard m) := by
  refine ⟨rfl, trivial, fun _ => (h _ trivial).bind fun phase r ⟨after, hphase, _⟩ => ?_⟩
  subst hphase
  exact ⟨trivial, fun _ => ⟨id, trivial⟩⟩

theorem checkRequest {hd : Bool} {afeBlock : Nat} {m : MezzScript α} (h : Apart .waiting m) :
    Apart .waiting (checkRequest hd afeBlock >>= fun _ => m) := by
  unfold MezzBus.checkRequest
  split
  · exact throw trivial
  · split
    · exact throw trivial
    · exact h

/-- A handler whose `try` keeps to the rules, without its answer. -/
theorem answer {empty : α} {failure : String} {m : MezzScript (String × α)} (h : Apart .waiting m) :
    (discard (MezzBus.answer empty failure m)).Job rules := by
  have hanswer : (MezzBus.answer empty failure m).Safe rules (fun phase _ => phase.Outside) .waiting :=
    Script.Safe.bind h fun phase r hphase => by cases r <;> exact hphase
  exact hanswer.bind fun phase _ hphase => hphase

end Apart

theorem job_serve (hd : Bool) (request : Request) : (request.serve hd).Job rules := by
  have hset {what : String} {set : Members → Float → Members} {afeBlock : Nat} {value : Float} :
      Orderly (setCalibration what set afeBlock value) :=
    orderly_check (orderly_check (Orderly.update.bind fun _ => Orderly.update) _) _
  have hget {γ : Type} {get : Members → Rail → Nat → γ} {afeBlock : Nat} {rail : Rail} : Orderly (getCalibration get afeBlock rail) :=
    orderly_check (Orderly.members.bind fun _ => Orderly.pure) _
  cases request with
  | setHDMezzBlockEnable afeBlock enable =>
    refine Apart.answer (Apart.checkRequest (Apart.busGuard ?_))
    exact (orderly_check Orderly.update _).bind fun _ => Orderly.pure
  | configureHDMezzBlock request =>
    refine Apart.answer (Apart.checkRequest (Apart.busGuard ?_))
    exact hset.bind fun _ => hset.bind fun _ => hset.bind fun _ => hset.bind fun _ => hset.bind fun _ => hset.bind fun _ =>
      (orderly_configureHdMezzAfeBlock _).bind fun _ => Orderly.pure
  | readHDMezzBlockConfig afeBlock =>
    refine Apart.answer (Apart.checkRequest (Apart.busGuard ?_))
    exact hget.bind fun _ => hget.bind fun _ => hget.bind fun _ => hget.bind fun _ => hget.bind fun _ => hget.bind fun _ =>
      hget.bind fun _ => hget.bind fun _ => hget.bind fun _ => hget.bind fun _ => hget.bind fun _ => hget.bind fun _ => Orderly.pure
  | setHDMezzPowerStates afeBlock power_5v power_3v3 =>
    refine Apart.answer (Apart.checkRequest (Apart.busGuard ?_))
    exact (orderly_powerOn_HDMezzAfeBlock afeBlock power_5v .v5).bind fun _ =>
      (orderly_powerOn_HDMezzAfeBlock afeBlock power_3v3 .v3v3).bind fun _ => Orderly.pure
  | readHDMezzStatus afeBlock =>
    refine Apart.answer (Apart.checkRequest ?_)
    have hload {γ : Type} {f : Members → MezzScript γ} (hf : ∀ m, Apart .done (f m)) : Apart .done (load >>= f) := Apart.load trivial hf
    exact Apart.load trivial fun _ => hload fun _ => hload fun _ => hload fun _ => hload fun _ => hload fun _ => hload fun _ =>
      hload fun _ => hload fun _ => hload fun _ => Apart.pure trivial
  | clearHDMezzAlertFlag afeBlock =>
    refine Apart.answer (Apart.checkRequest (Apart.busGuard ?_))
    exact Orderly.update.bind fun _ => Orderly.update.bind fun _ => Orderly.pure

theorem job_rules {script : Script Op Op.Res Unit} (h : Job hd t script) : script.Job rules := by
  cases h with
  | request request => exact job_serve hd request
  | monitorPass => exact job_monitorPass hd

/-! ### All interleavings -/

/-- However the threads take turns, every access that either has made is isolated. -/
theorem access_isolated {c : Config Thread Op Op.Res Shared} (hc : ServerReaches kept hd c) {e : Entry} {earlier : List Entry}
    (he : e :: earlier <:+ c.shared.log) : Isolated kept e earlier := by
  have hstart : ∀ s : Shared, s.log = [] → AllIsolated kept s := by
    intro s hs e earlier hsuffix
    rw [hs] at hsuffix
    exact absurd (List.suffix_nil.mp hsuffix) (List.cons_ne_nil e earlier)
  obtain ⟨phases, hordered⟩ := ordered_of_reachable sound_rules (fun _ _ => job_rules) hstart hc
  exact hordered.inv e earlier he

/-- The monitor does not get in between the read and the write of a request that switches a rail of block 0 on. -/
theorem exists_reaches_store : ∃ (c : Config Thread Op Op.Res Shared) (e : Entry) (earlier : List Entry),
    ServerReaches (fun _ _ => 0xFFFF) true c ∧ e :: earlier <:+ c.shared.log ∧ e.transaction = .store ⟨0, .tca9536, 0x1⟩ 0x1 := by
  let shared : Shared := ⟨⟨0, fun _ _ => 0, fun _ => 0⟩, { enabled_afeBlocks := fun _ => true }, []⟩
  have h : ServerReaches (fun _ _ => 0xFFFF) true ⟨none, shared, fun _ => .ret ()⟩ := .start rfl
  have h := h.step (.start (t := .router) rfl (.request (.setHDMezzPowerStates 0 true true)))
  have h := h.step (.lock (t := .router) rfl rfl)
  have h := h.step (.op (t := .router) rfl (.update _))
  have h := h.step (.op (t := .router) rfl .members)
  have h := h.step (.op (t := .router) rfl .select)
  have h := h.step (.op (t := .router) rfl .point)
  have h := h.step (.op (t := .router) rfl (.fetch 0 fun _ _ => rfl))
  have h := h.step (.start (t := .monitor) rfl .monitorPass)
  have h := h.step (.tryLock_failed (t := .monitor) rfl)
  have h := h.step (.op (t := .router) rfl .members)
  have h := h.step (.op (t := .router) rfl .select)
  have h := h.step (.op (t := .router) rfl .store)
  exact ⟨_, _, _, h, List.suffix_refl _, rfl⟩

theorem store_isolated : ∃ (e : Entry) (earlier : List Entry), e.transaction = .store ⟨0, .tca9536, 0x1⟩ 0x1 ∧
    Isolated (fun _ _ => 0xFFFF) e earlier := by
  obtain ⟨c, e, earlier, hc, he, hstore⟩ := exists_reaches_store
  exact ⟨e, earlier, hstore, access_isolated hc he⟩

end MezzBus
end DaphneZmq
