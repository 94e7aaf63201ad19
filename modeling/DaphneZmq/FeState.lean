import DaphneZmq.Handlers
import DaphneZmq.PdsConfigureUtils

/-! # The snapshot of the front end (client/read_fe_state_v2.py)

The client asks a server for all settings of the front end, and puts what it is told into the form of a seed. A field that a
response does not have, as when the server has refused the request, reads as zero. -/

namespace DaphneZmq.FeState
open PdsConfigureUtils

/-- A repeated field of a response. -/
def fields (resp : Option Response) : List UInt32 := (resp.map Response.values).getD []

/-- A field of a response. -/
def field (resp : Option Response) : UInt32 := (fields resp).headD 0

/-- An entry of `afe_entries`, without the bias monitor. -/
structure AfeEntry where
  id : Nat
  attenuators : UInt32
  v_bias : UInt32
deriving DecidableEq

@[ext]
structure Snapshot where
  offsets : List UInt32
  trims : List UInt32
  afes : List AfeEntry
  bias_ctrl : UInt32
deriving DecidableEq

section
variable {m : Type → Type} [Monad m] (do_op : Request → m (Option Response))

/-- The body of the loop over the AFEs. -/
def readAfe (afe : Nat) : m AfeEntry := do
  let resp_vg ← do_op (.readAFEVgain afe.toUInt32)
  let resp_bias ← do_op (.readAFEBiasSet afe.toUInt32)
  return { id := afe, attenuators := field resp_vg, v_bias := field resp_bias }

def readAll (afe_count : Nat) : m Snapshot := do
  let trim_all ← do_op (.readAllChannels .trim)
  let offset_all ← do_op (.readAllChannels .offset)
  let afe_entries ← (List.range afe_count).mapM (readAfe do_op)
  let resp_vbias_ctrl ← do_op .readVbiasControl
  return { offsets := fields offset_all, trims := fields trim_all, afes := afe_entries, bias_ctrl := field resp_vbias_ctrl }

end

/-- `config` -/
def Snapshot.config (snapshot : Snapshot) : Seed Empty where
  bias_ctrl := some (.int snapshot.bias_ctrl.toNat)
  channel_analog_conf := .value {
    ids := ints ((List.range 40).map fun (ch : Nat) => (ch : Int))
    gains := each 40 1
    offsets := ints (snapshot.offsets.map fun v => (v.toNat : Int))
    trims := ints (snapshot.trims.map fun v => (v.toNat : Int)) }
  afes := .value {
    ids := ints (snapshot.afes.map fun entry => (entry.id : Int))
    attenuators := ints (snapshot.afes.map fun entry => (entry.attenuators.toNat : Int))
    v_biases := ints (snapshot.afes.map fun entry => (entry.v_bias.toNat : Int)) }

end DaphneZmq.FeState
