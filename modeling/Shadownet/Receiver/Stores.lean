import Mathlib.Data.Finset.Insert
import Mathlib.Logic.Function.Basic
import Shadownet.Python.Credential
import Shadownet.Python.Message

/-!
# The receiver's stores

The in-memory replay cache, contact graph and credential cache of `shadownet/receiver.py`,
and the operations the pipeline calls. The synchronous and the asynchronous stores of the
source have the same bodies; `handle` says what each call answers and does.

One clock feeds the pipeline and its stores: `tick` relates each reading to the next.
-/

namespace Shadownet.Receiver

open Foundation Python

structure ProviderRecord where
  domain : Text
  version : Text
  endpoint : Text
  providerKeys : List Text
  isIssuer : Bool
  delegates : List Text
  deriving DecidableEq

/-- `InMemoryReplayCache._entries`. -/
abbrev ReplayEntries := Text × Text → Option Int

namespace ReplayEntries

/-- `_prune`. -/
def prune (entries : ReplayEntries) (now : Int) : ReplayEntries :=
  fun k => (entries k).filter fun v => decide (now < v)

/-- What `seen` answers once the entries are pruned. -/
def contains (entries : ReplayEntries) (sender messageId : Text) : Bool :=
  (entries (sender, messageId)).isSome

/-- `remember`. -/
def remember (entries : ReplayEntries) (now : Int) (sender messageId : Text)
    (retentionSeconds : Int) : ReplayEntries :=
  Function.update entries (sender, messageId) (some (now + retentionSeconds))

end ReplayEntries

/-- The three in-memory stores and the last reading of the clock. -/
structure Stores where
  clock : Int
  replay : ReplayEntries
  contacts : Finset Text
  outbound : Text × Text → Option Int
  credentials : Text → List (VerifiedCredential × Int)

/-- Fresh stores at the time `t`. -/
def Stores.empty (t : Int) : Stores where
  clock := t
  replay _ := none
  contacts := ∅
  outbound _ := none
  credentials _ := []

/-- What the pipeline calls. -/
inductive Op where
  | now
  | providerLookup (domain : Text)
  | fetchAgentCard (sender : Text) (record : ProviderRecord)
  | revocationCheck (credential : VerifiedCredential)
  | seen (sender messageId : Text)
  | remember (sender messageId : Text) (retentionSeconds : Int)
  | cache (sender : Text) (credential : VerifiedCredential) (expiresAt : Int)
  | forSender (sender : Text)
  | isContact (shadowname : Text)
  | hasRecentOutbound (contextId peer : Text) (lookbackSeconds : Int)
  | addContact (shadowname : Text)
  deriving DecidableEq

/-- The type of the answers. An AgentCard is its `shadow_public_key`. -/
@[reducible] def Ans : Op → Type
  | .now => Int
  | .providerLookup _ => Py ProviderRecord
  | .fetchAgentCard _ _ => Py Text
  | .revocationCheck _ => Py Unit
  | .seen _ _ => Bool
  | .remember _ _ _ => Unit
  | .cache _ _ _ => Unit
  | .forSender _ => List VerifiedCredential
  | .isContact _ => Bool
  | .hasRecentOutbound _ _ _ => Bool
  | .addContact _ => Unit

/-- `InMemoryCredentialCache.for_sender` at the time `t`: the entries it keeps. -/
def Stores.live (s : Stores) (t : Int) (sender : Text) : List (VerifiedCredential × Int) :=
  (s.credentials sender).filter fun e => decide (t < e.2)

/-- `for_sender` stores what it kept. -/
def Stores.keepLive (s : Stores) (t : Int) (sender : Text) : Stores :=
  { s with clock := t, credentials := Function.update s.credentials sender (s.live t sender) }

/-- `InMemoryCredentialCache.cache`. -/
def Stores.cache (s : Stores) (sender : Text) (credential : VerifiedCredential)
    (expiresAt : Int) : Stores :=
  let bucket := s.credentials sender ++ [(credential, expiresAt)]
  { s with credentials := Function.update s.credentials sender bucket }

/-- `handle tick s o a s'`: called in `s`, the operation `o` may answer `a` and leave `s'`.
Lookups, AgentCards and revocation checks may answer anything. -/
def handle (tick : Int → Int → Prop) (s : Stores) : (o : Op) → Ans o → Stores → Prop
  | .now, t, s' => tick s.clock t ∧ s' = { s with clock := t }
  | .providerLookup _, _, s' => s' = s
  | .fetchAgentCard _ _, _, s' => s' = s
  | .revocationCheck _, _, s' => s' = s
  | .seen sender messageId, b, s' => ∃ t, tick s.clock t ∧
      b = (s.replay.prune t).contains sender messageId ∧
      s' = { s with clock := t, replay := s.replay.prune t }
  | .remember sender messageId retention, _, s' => ∃ t, tick s.clock t ∧
      s' = { s with clock := t, replay := s.replay.remember t sender messageId retention }
  | .cache sender credential expiresAt, _, s' =>
      s' = s.cache sender credential expiresAt
  | .forSender sender, creds, s' => ∃ t, tick s.clock t ∧
      creds = (s.live t sender).map Prod.fst ∧
      s' = s.keepLive t sender
  | .isContact name, b, s' => b = decide (name ∈ s.contacts) ∧ s' = s
  | .hasRecentOutbound contextId peer lookback, b, s' =>
      match s.outbound (contextId, peer) with
      | none => b = false ∧ s' = s
      | some ts => ∃ t, tick s.clock t ∧ b = decide (t - lookback ≤ ts) ∧
          s' = { s with clock := t }
  | .addContact name, _, s' => s' = { s with contacts := insert name s.contacts }

/-- `record_outbound` at the time `t`. -/
def Stores.recordOutbound (s : Stores) (t : Int) (contextId peer : Text) : Stores :=
  { s with clock := t, outbound := Function.update s.outbound (contextId, peer) (some t) }

def Stores.addContact (s : Stores) (name : Text) : Stores :=
  { s with contacts := insert name s.contacts }

def Stores.removeContact (s : Stores) (name : Text) : Stores :=
  { s with contacts := s.contacts.erase name }

end Shadownet.Receiver
