import Mtransaction.Lib.HashMap
import Mathlib.Data.Finset.Basic

/-! Constants, messages and records shared by the modules of the server. -/

namespace Mtransaction

/-! ## Constants of `server/main.rs` -/

def nCopies : ℕ := 2
def nLeaders : ℕ := 7
def nConsumers : ℕ := 3

/-- The ways a server task can panic.  `setup_panic_hook` ends the whole process on any of them. -/
inductive Panic
  /-- `gen_range` over an empty range -/
  | emptyRange
  /-- `slice::chunks` with chunk size 0 -/
  | zeroChunkSize
  /-- division by a count that wrapped around to 0 -/
  | divideByZero
  /-- `header_value.to_str().unwrap()` -/
  | headerNotText
  /-- `base64::decode(&data).unwrap()` -/
  | notBase64
  /-- `.expect("No leader schedule!")` -/
  | noLeaderSchedule
  /-- `Pubkey::from_str(identity).unwrap()` -/
  | notPubkey
  deriving DecidableEq, Repr

/-- Which channel, and which one-shot unsubscribe signal, a subscription was given.  Both are made
afresh by every `subscribe`. -/
abbrev ConnId := ℕ

structure LeaderInfo where
  identity : String
  tpu : String
  dcFullCity : String
  isJito : Bool
  deriving DecidableEq, Repr

structure TxConsumer where
  identity : String
  stake : UInt64
  tx : ConnId
  token : String
  txUnsubscribe : Option ConnId
  doUnsubscribe : Bool
  deriving DecidableEq, Repr

/-- `Drop for TxConsumer`: the unsubscribe signal goes out if it has not yet. -/
def TxConsumer.drop (consumer : TxConsumer) : List ConnId := consumer.txUnsubscribe.toList

structure RttValue where
  rtt : UInt64
  n : UInt64
  deriving DecidableEq, Repr

instance : Inhabited RttValue := ⟨⟨0, 0⟩⟩

inductive Mode
  | blackhole
  | forward
  deriving DecidableEq, Repr

def Mode.toString : Mode → String
  | .blackhole => "BLACKHOLE"
  | .forward => "FORWARD"

structure Signature where
  bytes : Vector UInt8 64
  deriving DecidableEq, Repr

/-- What the signature watcher remembers of one request.  Instants are nanoseconds. -/
structure SignatureRecord where
  createdAt : ℕ
  ctime : UInt64
  rtime : UInt64
  reqId : ℕ
  signature : Signature
  mode : Mode
  consumers : List String
  tpuIps : Finset String
  partnerName : String
  deriving DecidableEq

/-! ## Messages of `proto/mtransaction.proto` -/

structure Rtt where
  ip : String
  rtt : UInt64
  deriving DecidableEq, Repr

structure Transaction where
  data : String
  signature : String
  tpu : List String
  deriving DecidableEq, Repr

structure PingMessage where
  id : String
  deriving DecidableEq, Repr

structure ResponseMessageEnvelope where
  transaction : Option Transaction := none
  ping : Option PingMessage := none
  deriving DecidableEq, Repr

def buildTxMessageEnvelope (signature data : String) (tpu : List String) :
    ResponseMessageEnvelope :=
  { transaction := some { signature, data, tpu } }

end Mtransaction
