import Shadownet.Receiver.Stores

/-!
# Provider records

`shadownet/provider.py`: the TXT records at `_shadownet.<domain>`. Records that do not parse are
skipped, and exactly one must be left.

* `parseProviderTxt_eq_ok`: what a record is.
* `recordsFromAnswer_eq_ok`: what an answer must be.
-/

namespace Shadownet.Receiver

open Foundation Python

def providerResolutionError (msg : Text) : Exc := ⟨.providerResolutionError, msg⟩

/-! ## One record -/

/-- The result of `_parse_kv`, in the order of the text: a key with several values is there
several times. -/
abbrev Fields := List (Text × Text)

/-- `fields.get(key)`, with `[]` for a missing key. -/
def Fields.get (fields : Fields) (key : Text) : List Text :=
  (fields.filter fun f => f.1 == key).map Prod.snd

/-- `part.partition("=")` of a text with an `=`: the parts before and after the first. -/
def partitionEq (part : Text) : Text × Text :=
  (part.takeWhile (· != 61), (part.dropWhile (· != 61)).drop 1)

/-- One round of the loop of `_parse_kv`. -/
def parsePart (G : Runtime) (raw : Text) : Py (Option (Text × Text)) :=
  let part := strip raw
  if part = [] then pure none
  else if ¬ part.contains 61 then
    throw (providerResolutionError (text "malformed key=value pair: " ++ G.reprStr part))
  else
    let (key, val) := partitionEq part
    pure (some (G.lower (strip key), strip val))

/-- `_parse_kv`. -/
def parseKv (G : Runtime) (value : Text) : Py Fields := do
  let parts ← (value.splitOn 59).mapM (parsePart G)
  pure (parts.filterMap id)

/-- `_single`. -/
def single (G : Runtime) (fields : Fields) (key : Text) : Py Text :=
  match fields.get key with
  | [] => throw (providerResolutionError (text "missing required key " ++ G.reprStr key))
  | [value] => pure value
  | _ => throw (providerResolutionError (text "key " ++ G.reprStr key ++
      text " appears more than once"))

/-- `_flag`. -/
def flag (G : Runtime) (fields : Fields) (key : Text) : Bool :=
  (fields.get key).head?.any fun value => G.lower value == text "true"

/-- The prefixes `parse_provider_txt` takes for an endpoint. -/
def allowedEndpoint (endpoint : Text) : Bool :=
  [text "https://", text "http://localhost", text "http://127.0.0.1", text "http://[::1]"].any
    (·.isPrefixOf endpoint)

/-- `parse_provider_txt`. -/
def parseProviderTxt (G : Runtime) (domain value : Text) : Py ProviderRecord := do
  let fields ← parseKv G value
  let version ← single G fields (text "v")
  if version ≠ text "0.2" then
    throw (providerResolutionError (text "unsupported v=" ++ G.reprStr version))
  else do
    let endpoint ← single G fields (text "ep")
    if ¬ allowedEndpoint endpoint then
      throw (providerResolutionError (text "ep must be https:// (or loopback http://), got " ++
        G.reprStr endpoint))
    else
      let pkValues := fields.get (text "pk")
      if pkValues = [] then throw (providerResolutionError (text "missing required key 'pk'"))
      else do
        reraise [.invalidIdentifierError]
          (fun exc => providerResolutionError (text "invalid pk: " ++ exc.msg))
          (pkValues.forM fun pk => do
            let _ ← parsePublicKey G pk
            pure ())
        pure {
          domain, version, endpoint
          providerKeys := pkValues
          isIssuer := flag G fields (text "iss")
          delegates := fields.get (text "delegate") }

/-! ## The answer -/

/-- One entry of a `dns.resolver.Answer`. -/
inductive Rdata where
  | txt (strings : List Bytes)
  | other

/-- The exceptions of dnspython that are told apart; `failure` is any other `DNSException`. -/
inductive DnsError where
  | nxdomain
  | noAnswer
  | failure (msg : Text)

/-- `resolver.resolve(name, rdtype="TXT")`, and `str(exc)` of the error `bytes.decode` raises. -/
structure Dns where
  resolve : Text → Except DnsError (List Rdata)
  decodeText : Bytes → Text

/-- One round of the loop of `_records_from_answer`. -/
def recordOf (G : Runtime) (D : Dns) (domain : Text) : Rdata → Py (Option ProviderRecord)
  | .other => pure none
  | .txt strings =>
    match utf8Decode strings.flatten with
    | none => throw ⟨.unicodeDecodeError, D.decodeText strings.flatten⟩
    | some joined =>
      match parseProviderTxt G domain joined with
      | .ok record => pure (some record)
      | .error e => if e.cls.isA .providerResolutionError then pure none else throw e

/-- `_records_from_answer`. -/
def recordsFromAnswer (G : Runtime) (D : Dns) (domain name : Text) (answer : List Rdata) :
    Py ProviderRecord := do
  let records ← answer.mapM (recordOf G D domain)
  match records.filterMap id with
  | [] => throw (providerResolutionError (text "no v=0.2 TXT at " ++ G.reprStr name))
  | [record] => pure record
  | _ => throw (providerResolutionError (text "multiple v=0.2 TXT records at " ++
      G.reprStr name ++ text "; expected one"))

/-- `lookup_provider_record`; `alookup_provider_record` has the same body. -/
def lookupProviderRecord (G : Runtime) (D : Dns) (domain : Text) : Py ProviderRecord :=
  let name := text "_shadownet." ++ rstripDot domain
  match D.resolve name with
  | .error .nxdomain =>
    throw (providerResolutionError (text "no _shadownet TXT for " ++ G.reprStr domain))
  | .error .noAnswer =>
    throw (providerResolutionError (text "no TXT answer for " ++ G.reprStr name))
  | .error (.failure msg) =>
    throw (providerResolutionError (text "DNS error resolving " ++ G.reprStr name ++ text ": " ++
      msg))
  | .ok answer => recordsFromAnswer G D domain name answer

/-! ## What is accepted -/

/-- The fields of a provider record. -/
structure IsProviderRecord (G : Runtime) (fields : Fields) : Prop where
  version : fields.get (text "v") = [text "0.2"]
  endpoint : ∃ ep, fields.get (text "ep") = [ep] ∧ allowedEndpoint ep = true
  published : fields.get (text "pk") ≠ []
  keys : ∀ pk ∈ fields.get (text "pk"), ∃ key, parsePublicKey G pk = .ok key

/-- The record with the fields of a text. -/
def Fields.record (G : Runtime) (domain : Text) (fields : Fields) : ProviderRecord where
  domain := domain
  version := text "0.2"
  endpoint := (fields.get (text "ep")).headD []
  providerKeys := fields.get (text "pk")
  isIssuer := flag G fields (text "iss")
  delegates := fields.get (text "delegate")

section
variable {G : Runtime} {D : Dns} {domain name value : Text} {fields : Fields}

theorem single_eq_ok {key v : Text} : single G fields key = .ok v ↔ fields.get key = [v] := by
  unfold single
  split
  · next h => simp [h]
  · next w h => simp [h]
  · next h1 h2 =>
    simp only [throw_eq_ok, false_iff]
    exact h2 v

theorem parseProviderTxt_eq_ok {record : ProviderRecord} :
    parseProviderTxt G domain value = .ok record ↔ ∃ fields, parseKv G value = .ok fields ∧
      IsProviderRecord G fields ∧ record = fields.record G domain := by
  simp only [parseProviderTxt, bind_eq_ok, single_eq_ok, guard_eq_ok, reraise_eq_ok,
    pure_eq_ok, not_not]
  constructor
  · rintro ⟨fields, hkv, v, hv, rfl, ep, hep, hallowed, hne, ⟨⟩, hkeys, rfl⟩
    refine ⟨fields, hkv, ⟨hv, ⟨ep, hep, hallowed⟩, hne, fun pk hpk => ?_⟩, ?_⟩
    · obtain ⟨key, hkey, -⟩ := bind_eq_ok.mp (forM_eq_ok.mp hkeys pk hpk)
      exact ⟨key, hkey⟩
    · rw [Fields.record, hep]
      rfl
  · rintro ⟨fields, hkv, ⟨hv, ⟨ep, hep, hallowed⟩, hne, hkeys⟩, rfl⟩
    refine ⟨fields, hkv, _, hv, rfl, ep, hep, hallowed, hne, (), ?_, ?_⟩
    · refine forM_eq_ok.mpr fun pk hpk => ?_
      obtain ⟨key, hkey⟩ := hkeys pk hpk
      exact bind_eq_ok.mpr ⟨key, hkey, rfl⟩
    · rw [Fields.record, hep]
      rfl

/-! ### Records that do not parse -/

theorem raises_single (key : Text) :
    Raises .providerResolutionError (single G fields key) := by
  unfold single
  split
  · exact .throw _
  · exact .pure _
  · exact .throw _

theorem raises_parseProviderTxt (domain value : Text) :
    Raises .providerResolutionError (parseProviderTxt G domain value) := by
  have hkv : Raises .providerResolutionError (parseKv G value) :=
    .bind (.mapM fun raw _ => .ite (.pure _) (.ite (.throw _) (.pure _))) fun _ => .pure _
  refine .bind hkv fun fields => .bind (raises_single _) fun version => ?_
  refine .ite (.throw _) (.bind (raises_single _) fun endpoint => ?_)
  refine .ite (.throw _) (.ite (.throw _) (.bind ?_ fun _ => .pure _))
  exact .reraise (.forM fun pk _ => .bind (raises_parsePublicKey pk) fun _ => .pure ())
    (by decide) fun _ => rfl

/-! ### Answers -/

/-- The strings of the TXT entries, each joined. -/
def txtLines (answer : List Rdata) : List Bytes :=
  answer.filterMap fun
    | .txt strings => some strings.flatten
    | .other => none

/-- The record in a joined string. -/
def recordIn (G : Runtime) (domain : Text) (line : Bytes) : Option ProviderRecord :=
  (utf8Decode line).bind fun joined => (parseProviderTxt G domain joined).toOption

theorem recordOf_txt {strings : List Bytes} {r : Option ProviderRecord} :
    recordOf G D domain (.txt strings) = .ok r ↔
      (utf8Decode strings.flatten).isSome = true ∧ r = recordIn G domain strings.flatten := by
  rw [recordOf, recordIn]
  cases utf8Decode strings.flatten with
  | none => simp
  | some joined =>
    simp only [Option.isSome_some, Option.bind_some, true_and]
    cases hparse : parseProviderTxt G domain joined with
    | ok record => exact pure_eq_ok.trans eq_comm
    | error e =>
      have hcls : e.cls.isA .providerResolutionError = true := by
        rw [raises_parseProviderTxt domain joined e hparse]
        decide
      simp only [hcls, if_true]
      exact pure_eq_ok.trans eq_comm

/-- All strings are UTF-8 and one of them is a record. -/
theorem recordsFromAnswer_eq_ok {answer : List Rdata} {record : ProviderRecord} :
    recordsFromAnswer G D domain name answer = .ok record ↔
      (∀ line ∈ txtLines answer, (utf8Decode line).isSome = true) ∧
        (txtLines answer).filterMap (recordIn G domain) = [record] := by
  have hloop : ∀ {records}, answer.mapM (recordOf G D domain) = .ok records ↔
      (∀ rdata ∈ answer, ∀ strings, rdata = .txt strings →
        (utf8Decode strings.flatten).isSome = true) ∧
      records = answer.map fun
        | .txt strings => recordIn G domain strings.flatten
        | .other => none := by
    refine mapM_eq_ok fun rdata _ r => ?_
    cases rdata with
    | other =>
      rw [recordOf, pure_eq_ok, eq_comm]
      simp
    | txt strings => simp [recordOf_txt]
  have hlines : (∀ rdata ∈ answer, ∀ strings, rdata = .txt strings →
      (utf8Decode strings.flatten).isSome = true) ↔
      ∀ line ∈ txtLines answer, (utf8Decode line).isSome = true := by
    constructor
    · intro h line hline
      obtain ⟨rdata, hr, heq⟩ := List.mem_filterMap.mp hline
      cases rdata with
      | other => cases heq
      | txt strings =>
        cases heq
        exact h _ hr strings rfl
    · rintro h rdata hr strings rfl
      exact h _ (List.mem_filterMap.mpr ⟨_, hr, rfl⟩)
  have hrecords : (answer.map fun
      | .txt strings => recordIn G domain strings.flatten
      | .other => none).filterMap id = (txtLines answer).filterMap (recordIn G domain) := by
    rw [txtLines, List.filterMap_map, List.filterMap_filterMap]
    refine List.filterMap_congr fun rdata _ => ?_
    cases rdata <;> rfl
  rw [recordsFromAnswer, bind_eq_ok, ← hlines]
  simp only [hloop]
  constructor
  · rintro ⟨_, ⟨hdecodes, rfl⟩, h⟩
    rw [hrecords] at h
    refine ⟨hdecodes, ?_⟩
    split at h
    · exact (throw_eq_ok.mp h).elim
    · next r hr => rw [hr, pure_eq_ok.mp h]
    · exact (throw_eq_ok.mp h).elim
  · rintro ⟨hdecodes, h⟩
    refine ⟨_, ⟨hdecodes, rfl⟩, ?_⟩
    rw [hrecords, h]
    rfl

/-! ### Delegates -/

/-- As Python reads a text: a part with the key `delegate` and the value `d`. -/
def DelegateIn (G : Runtime) (value d : Text) : Prop :=
  ∃ part ∈ value.splitOn 59, (strip part).contains 61 = true ∧
    G.lower (strip (partitionEq (strip part)).1) = text "delegate" ∧
    strip (partitionEq (strip part)).2 = d

theorem mem_delegates (h : parseKv G value = .ok fields) {d : Text} :
    d ∈ fields.get (text "delegate") ↔ DelegateIn G value d := by
  have hpart : ∀ raw ∈ value.splitOn 59, ∀ x, parsePart G raw = .ok x ↔
      (strip raw ≠ [] → (strip raw).contains 61 = true) ∧
        x = if strip raw = [] then none
          else some (G.lower (strip (partitionEq (strip raw)).1),
            strip (partitionEq (strip raw)).2) := by
    intro raw _ x
    rw [parsePart]
    by_cases hempty : strip raw = []
    · simp only [hempty, if_true, ne_eq, not_true_eq_false, false_implies, true_and]
      exact pure_eq_ok.trans eq_comm
    · simp only [hempty, if_false, ne_eq, not_false_eq_true, true_implies, guard_eq_ok, not_not]
      exact and_congr_right fun _ => pure_eq_ok.trans eq_comm
  obtain ⟨parts, hparts, hfields⟩ := bind_eq_ok.mp h
  obtain ⟨hok, rfl⟩ := (mapM_eq_ok hpart).mp hparts
  rw [← pure_eq_ok.mp hfields, Fields.get, List.mem_map]
  constructor
  · rintro ⟨f, hf, rfl⟩
    obtain ⟨hf, hkey⟩ := List.mem_filter.mp hf
    obtain ⟨x, hx, rfl⟩ := List.mem_filterMap.mp hf
    obtain ⟨raw, hraw, heq⟩ := List.mem_map.mp hx
    split_ifs at heq with hempty
    cases Option.some.inj heq
    exact ⟨raw, hraw, hok raw hraw hempty, beq_iff_eq.mp hkey, rfl⟩
  · rintro ⟨raw, hraw, heq, hkey, rfl⟩
    have hne : strip raw ≠ [] := by
      intro hempty
      rw [hempty] at heq
      cases heq
    refine ⟨(_, strip (partitionEq (strip raw)).2), List.mem_filter.mpr ⟨?_, beq_iff_eq.mpr hkey⟩,
      rfl⟩
    exact List.mem_filterMap.mpr ⟨_, List.mem_map.mpr ⟨raw, hraw, if_neg hne⟩, rfl⟩

end

end Shadownet.Receiver
