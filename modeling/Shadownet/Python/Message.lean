import Shadownet.Python.Envelope

/-!
# A2A messages

`shadownet/a2a.py`: building a message around a signed envelope, and finding the envelope
in a request.
-/

namespace Shadownet.Python

open Foundation

/-- The keys under which the fields of an `A2AMessage` travel. -/
def messageKeys : List Text :=
  [text "messageId", text "role", text "parts", text "contextId", text "taskId",
    text "extensions", text "metadata"]

/-- `A2AMessage`. A key that belongs to a field is never kept as an extra. -/
structure A2AMessage where
  messageId : Text
  role : Text
  parts : List Dict
  contextId : Option Text
  taskId : Option Text
  extensions : List Text
  metadata : Dict
  extra : Dict
  extra_fresh : ∀ k ∈ messageKeys, extra.get? k = none

/-- The fields of a message by their wire keys, extras last. -/
def A2AMessage.fields (m : A2AMessage) : List (Text × Value) :=
  [(text "messageId", .str m.messageId), (text "role", .str m.role),
    (text "parts", .arr (m.parts.map fun p => .obj p.members)),
    (text "contextId", m.contextId.elim .null .str), (text "taskId", m.taskId.elim .null .str),
    (text "extensions", .arr (m.extensions.map .str)),
    (text "metadata", .obj m.metadata.members)] ++ m.extra.members

/-- `v != [] or k == "parts"`. -/
def keptOnWire (m : Text × Value) : Bool :=
  match m.2 with
  | .arr [] => m.1 == text "parts"
  | _ => true

theorem A2AMessage.fields_distinct (m : A2AMessage) : (Json.obj m.fields).Distinct := by
  have hextra := Json.distinct_obj.mp m.extra.distinct
  rw [Json.distinct_obj]
  constructor
  · have hkeys : m.fields.map Prod.fst = messageKeys ++ m.extra.members.map Prod.fst := rfl
    rw [hkeys, List.nodup_append]
    refine ⟨by decide, hextra.1, ?_⟩
    rintro k hk _ hkx rfl
    obtain ⟨x, hx, rfl⟩ := List.mem_map.mp hkx
    have hnone := List.lookup_eq_none_iff.mp (m.extra_fresh _ hk) x hx
    simp at hnone
  · intro x hx
    rcases List.mem_append.mp hx with hx | hx
    · have hopt : ∀ o : Option Text, ((o.elim Json.null Json.str : Value)).Distinct := by
        rintro (- | s) <;> trivial
      simp only [List.mem_cons, List.not_mem_nil, or_false] at hx
      rcases hx with rfl | rfl | rfl | rfl | rfl | rfl | rfl
      · trivial
      · trivial
      · refine Json.distinct_arr.mpr fun v hv => ?_
        obtain ⟨p, -, rfl⟩ := List.mem_map.mp hv
        exact p.distinct
      · exact hopt _
      · exact hopt _
      · refine Json.distinct_arr.mpr fun v hv => ?_
        obtain ⟨s, -, rfl⟩ := List.mem_map.mp hv
        trivial
      · exact m.metadata.distinct
    · exact hextra.2 x hx

/-- `to_wire`. -/
def A2AMessage.toWire (m : A2AMessage) : Dict :=
  (Dict.mk m.fields m.fields_distinct).filter fun x =>
    (match x.2 with
      | .null => false
      | _ => true) && keptOnWire x

structure BuiltMessage where
  message : Dict
  envelopeJws : Text
  envelopePayload : EnvelopePayload

def buildAndSignMessage (G : Runtime) (message : A2AMessage) (template : EnvelopePayload)
    (senderKey : KeyPair) : Py BuiltMessage := do
  let raw := message.toWire
  let msgHash ← computeMsgHash G raw
  let finalPayload := { template with msgHash := msgHash }
  let envelopeJws ← mintEnvelope G finalPayload senderKey
  let metadata := ((raw.sub? (text "metadata")).getD Dict.empty).set envelopeExtensionUri
    (.str envelopeJws) (Json.distinct_str _)
  pure ⟨raw.set (text "metadata") (.obj metadata.members) metadata.distinct, envelopeJws,
    finalPayload⟩

/-! ## Requests -/

def parseError (msg : Text) : Exc := ⟨.parseError, msg⟩

/-- `v or []` as a list, `none` when it is something else. -/
def listOrEmpty : Option Value → Option (List Value)
  | none => some []
  | some .null => some []
  | some (.bool false) => some []
  | some (.num (.int 0)) => some []
  | some (.num (.float b)) => if b = 0 ∨ b = 0x8000000000000000 then some [] else none
  | some (.str []) => some []
  | some (.obj []) => some []
  | some (.arr items) => some items
  | some _ => none

/-- `d.get(k) or {}` as a dict, `none` when it is something else. -/
def dictOrEmpty (d : Dict) (k : Text) : Option Dict :=
  match d.sub? k with
  | some m => some m
  | none => ((listOrEmpty (d.get? k)).filter (· = [])).map fun _ => Dict.empty

/-- `extract_envelope_jws`. -/
def extractEnvelopeJws (G : Runtime) (requestBody : Dict) : Py (Text × Dict) :=
  match requestBody.sub? (text "message") with
  | none => throw (parseError (text "message:send body missing 'message'"))
  | some message =>
    let extensions := (listOrEmpty (message.get? (text "extensions"))).getD []
    if ¬ extensions.any (fun v => isStr (some v) envelopeExtensionUri) then
      throw (parseError (text "message.extensions must include " ++
        G.reprStr envelopeExtensionUri))
    else
      match dictOrEmpty message (text "metadata") with
      | none => throw (parseError (text "message.metadata must be an object"))
      | some metadata =>
        match metadata.get? envelopeExtensionUri with
        | some (.str envelope) =>
          if envelope.count 46 ≠ 2 then
            throw (parseError (text "message.metadata[" ++ G.reprStr envelopeExtensionUri ++
              text "] missing or not a JWS-compact string"))
          else pure (envelope, message)
        | _ =>
          throw (parseError (text "message.metadata[" ++ G.reprStr envelopeExtensionUri ++
            text "] missing or not a JWS-compact string"))

end Shadownet.Python
