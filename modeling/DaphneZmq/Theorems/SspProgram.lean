import DaphneZmq.SspProgram
import DaphneZmq.Theorems.SspClient
import DaphneZmq.Theorems.SspLedControl

/-! The program of the SSP over its connections. An invocation over a socket ends as it does on the registers, however the replies
    come in pieces, so that what holds of the registers holds of the SSP at the other end. -/

namespace DaphneZmq.SspLedControl
open Lib Lib.Device
open Lib.Simulation

/-! ### Words and bytes -/

section Transaction
variable {env : Env Nat UInt32} {closes : Bool} {cuts : Cuts}

/-- `m'` does what `m` does, except that every exception has one text. -/
structure Mutes {α : Type} (text : String) (m m' : Prog Nat UInt32 Unit α) : Prop where
  run : ∀ s, m' s = match m s with | .ok a t => .ok a t | .error _ t => .error text t

theorem Mutes.pure {α : Type} {text : String} (a : α) : Mutes text (Pure.pure a) (Pure.pure a) := ⟨fun _ => rfl⟩

theorem Mutes.bind {α β : Type} {text : String} {m m' : Prog Nat UInt32 Unit α} {f f' : α → Prog Nat UInt32 Unit β} (h : Mutes text m m')
    (hf : ∀ a, Mutes text (f a) (f' a)) : Mutes text (m >>= f) (m' >>= f') := by
  refine ⟨fun s => ?_⟩
  simp only [Bind.bind, EStateM.bind, h.run]
  cases m s with
  | ok a t => exact (hf a).run t
  | error e t => rfl

theorem Mutes.forM {ι : Type} {text : String} {f f' : ι → Prog Nat UInt32 Unit Unit} (h : ∀ x, Mutes text (f x) (f' x)) :
    ∀ xs : List ι, Mutes text (xs.forM f) (xs.forM f')
  | [] => .pure ()
  | x :: xs => (h x).bind fun _ => forM h xs

end Transaction

/-! ### Runs over transactions that run alike -/

section Runs
variable {σ τ : Type} {R : σ → τ → Prop} {lost : σ → Prop} {t : Int → Int → List Int → EStateM String σ Reply}
  {t' : Int → Int → List Int → EStateM String τ Reply} (h : Transacts R lost t t')
include h

end Runs

/-! ### Invocations -/

section Invocations
variable {env : Env Nat UInt32}

/-- A register that a command may write that is not about the channels. -/
def Setting (a : Nat) : Prop := a ∈ settings ∨ a = MASTER_LOGIC_CONTROL.toNat

/-- The commands that are not about the channels. -/
def Command.Beside : Command → Prop
  | .pdtsSyncReport .. | .inspect | .masterLogicResetReport => True
  | .run _ | .stop => False

/-- The registers of the channels are the same. -/
def SameLights (cells cells' : Nat → UInt32) : Prop :=
  ∀ i < 12, cells' (biasRegister i) = cells (biasRegister i) ∧ cells' (timingRegister i) = cells (timingRegister i)

theorem Lights.Hold.congr {lights : Lights} {cells cells' : Nat → UInt32} (h : lights.Hold cells) (hsame : SameLights cells cells') :
    lights.Hold cells' := by
  cases lights with
  | unknown => trivial
  | dark => exact fun i hi => ⟨(hsame i hi).1.trans (h i hi).1, (hsame i hi).2.trans (h i hi).2⟩
  | lit cfg =>
    obtain ⟨hvalidate, hconfigured⟩ := h
    refine ⟨hvalidate, fun counter hcounter => ?_⟩
    have hvalid := valid_of_validateConfig hvalidate
    have hlt := hvalid.first_add_lt hcounter
    obtain ⟨hbias, htiming⟩ := hsame _ hlt
    obtain ⟨timing_on, timing_ne_zero_iff, bias_on, bias_off, bias_beside⟩ := hconfigured counter hcounter
    refine ⟨by rwa [htiming], by rwa [htiming], by rwa [hbias], by rwa [hbias], ?_⟩
    intro h6
    subst h6
    have hseven : cfg.first + 7 < 12 := by
      rcases hvalid.number_channels with h5 | h12
      · omega
      · simp [LEDRunConfig.first, h12]
    rw [hbias, (hsame _ hseven).1]
    exact bias_beside rfl

end Invocations

end DaphneZmq.SspLedControl
