import Shadownet.Python.Binding
import Shadownet.Python.Dumps
import Shadownet.X402.Payment

/-!
# Agreed and paid

`parse_x_payment` converts the members of the payload with `str()` and `int()`, and
`enforce_agreed_equals_paid` compares what comes out. Many payloads convert to the agreed terms
without being them.

* `agreed_equals_paid_iff`: the payloads for which the check means what it says.
* `roundTrip_iff`: the terms that survive `encode_x_payment` and `parse_x_payment`.
-/

namespace Shadownet.X402

open Foundation Python

/-! ## `encode_x_payment` -/

/-- The payload of terms. -/
def payloadOf (terms : PaidTerms) : Value :=
  .obj [(text "network", .str terms.network), (text "asset", .str terms.asset),
    (text "amount", .num (.int terms.amount)), (text "payTo", .str terms.payTo),
    (text "payer", terms.payer)]

/-- `encode_x_payment`. -/
def encodeXPayment (G : Runtime) (terms : PaidTerms) : Py Text := do
  let payload ← dumps G.py (payloadOf terms)
  pure (base64Url (utf8 payload))

/-! ## What is written -/

/-- A `payer`: a string or `None`. -/
def payerValue : Option Text → Value
  | none => .null
  | some s => .str s

def payerDoc : Option Text → Doc
  | none => .null
  | some s => .str (dumpedItems s)

/-- The name and value of a member that is not the first. -/
def nextMember (k : Text) (d : Doc) : Key × Doc :=
  (⟨[.space], dumpedItems k, []⟩, .padded [.space] d [])

/-- The document of terms. -/
def termsDoc (network asset : Text) (amount : Int) (payTo : Text) (payer : Option Text) : Doc :=
  .obj [] [(⟨[], dumpedItems (text "network"), []⟩,
      .padded [.space] (.str (dumpedItems network)) []),
    nextMember (text "asset") (.str (dumpedItems asset)),
    nextMember (text "amount") (.num (.ofInt amount)),
    nextMember (text "payTo") (.str (dumpedItems payTo)),
    nextMember (text "payer") (payerDoc payer)]

theorem dumps_payload {G : Python.Runtime} {network asset payTo : Text} {amount : Int}
    {payer : Option Text} (hshort : (natText amount.natAbs).length ≤ 4300) :
    dumps G (payloadOf ⟨network, asset, amount, payTo, payerValue payer⟩) =
      .ok (termsDoc network asset amount payTo payer).text := by
  have hamount : intRepr amount = .ok (decimal amount) := if_neg (by omega)
  have hpayer : dumps G (payerValue payer) = .ok (payerDoc payer).text := by
    cases payer with
    | none => rfl
    | some s =>
      rw [payerValue, dumps, payerDoc, Doc.text, stringText_dumped]
      rfl
  simp only [payloadOf, dumps, dumpsMembers, hamount, hpayer, termsDoc, nextMember, Doc.text,
    Doc.membersTail, Key.text, stringText_dumped, IntLit.text_ofInt, spaces, List.map_nil,
    List.map_cons, Space.code, List.nil_append, List.append_nil, decimal, pure_bind, ok_bind,
    List.cons_append, List.append_assoc]
  rfl

theorem names_nodup : ([text "network", text "asset", text "amount", text "payTo",
    text "payer"] : List Text).Nodup := by
  decide

theorem termsDoc_value (network asset : Text) (amount : Int) (payTo : Text)
    (payer : Option Text) :
    pyValue (termsDoc network asset amount payTo payer).value =
      payloadOf ⟨joinPairs network, joinPairs asset, amount, joinPairs payTo,
        payerValue (payer.map joinPairs)⟩ := by
  have hkey : ∀ k ∈ [text "network", text "asset", text "amount", text "payTo", text "payer"],
      joinPairs k = k := by
    intro k hk
    have hall : ([text "network", text "asset", text "amount", text "payTo",
      text "payer"].all fun k => joinPairs k == k) = true := by decide
    exact beq_iff_eq.mp (List.all_eq_true.mp hall k hk)
  simp only [List.forall_mem_cons] at hkey
  obtain ⟨hnetwork, hasset, hamount, hpayTo, hpayer, -⟩ := hkey
  have hvalue : (termsDoc network asset amount payTo payer).value =
      .obj [(text "network", .str (joinPairs network)), (text "asset", .str (joinPairs asset)),
        (text "amount", .num (.ofInt amount)), (text "payTo", .str (joinPairs payTo)),
        (text "payer", (payerDoc payer).value)] := by
    simp only [termsDoc, nextMember, Doc.value, Doc.memberValues, stringValue_dumped, hnetwork,
      hasset, hamount, hpayTo, hpayer]
  have hpayerValue : pyValue (payerDoc payer).value = payerValue (payer.map joinPairs) := by
    cases payer with
    | none => rfl
    | some s =>
      rw [payerDoc, Doc.value, stringValue_dumped]
      rfl
  have hamountValue : pyValue (.num (.ofInt amount)) = .num (.int amount) :=
    congrArg (fun n => (.num (.int n) : Value)) (IntLit.value_ofInt amount)
  rw [hvalue, pyValue_obj, Json.keepLast_of_nodup]
  · simp only [List.map_cons, List.map_nil, hpayerValue, hamountValue, payloadOf]
    rfl
  · simp only [List.map_cons, List.map_nil]
    exact names_nodup

/-! ## What is read -/

/-- The payload of an `X-PAYMENT` value. -/
def readPayload (G : Runtime) (xPayment : Text) : Py Value := do
  let raw ← urlsafeB64decode (xPayment ++ padding xPayment)
  jsonLoads G.json raw

/-- The terms in a payload. -/
def termsIn (G : Runtime) (data : Value) : Py PaidTerms := do
  let network ← subscript G data (text "network")
  let asset ← subscript G data (text "asset")
  let amount ← subscript G data (text "amount")
  let amount ← pyInt G amount
  let payTo ← subscript G data (text "payTo")
  let payer := match data with
    | .obj members => (members.lookup (text "payer")).getD .null
    | _ => .null
  pure ⟨pyStr G network, pyStr G asset, amount, pyStr G payTo, payer⟩

theorem parseXPayment_eq (G : Runtime) (xPayment : Text) :
    parseXPayment G xPayment = (reraise [.valueError, .jsonDecodeError]
      (fun exc => amountMismatchError (text "malformed X-PAYMENT: " ++ exc.msg))
      (readPayload G xPayment)) >>= fun data => reraise [.keyError, .typeError, .valueError]
        (fun exc => amountMismatchError (text "X-PAYMENT missing required fields: " ++ exc.msg))
        (termsIn G data) := rfl

theorem parseXPayment_eq_ok {G : Runtime} {xPayment : Text} {terms : PaidTerms} :
    parseXPayment G xPayment = .ok terms ↔
      ∃ data, readPayload G xPayment = .ok data ∧ termsIn G data = .ok terms := by
  rw [parseXPayment_eq, bind_eq_ok]
  simp only [reraise_eq_ok]

theorem subscript_eq_ok {G : Runtime} {data v : Value} {key : Text} :
    subscript G data key = .ok v ↔
      ∃ members, data = .obj members ∧ members.lookup key = some v := by
  cases data with
  | obj members =>
    rw [subscript]
    cases hv : members.lookup key with
    | none => simp [hv]
    | some w => simp [hv, pure_eq_ok]
  | _ => simp [subscript]

/-- The members that make terms. -/
structure HasTerms (members : List (Text × Value)) (network asset amount payTo : Value) : Prop where
  network : members.lookup (text "network") = some network
  asset : members.lookup (text "asset") = some asset
  amount : members.lookup (text "amount") = some amount
  payTo : members.lookup (text "payTo") = some payTo

theorem termsIn_eq_ok {G : Runtime} {data : Value} {terms : PaidTerms} :
    termsIn G data = .ok terms ↔ ∃ members network asset amount payTo k, data = .obj members ∧
      HasTerms members network asset amount payTo ∧ pyInt G amount = .ok k ∧
      terms = ⟨pyStr G network, pyStr G asset, k, pyStr G payTo,
        (members.lookup (text "payer")).getD .null⟩ := by
  simp only [termsIn, bind_eq_ok, subscript_eq_ok, pure_eq_ok]
  constructor
  · rintro ⟨network, ⟨members, rfl, hn⟩, asset, ⟨_, hm, ha⟩, amount, ⟨_, hm', hx⟩, k, hk, payTo,
      ⟨_, hm'', hp⟩, rfl⟩
    cases hm
    cases hm'
    cases hm''
    exact ⟨members, network, asset, amount, payTo, k, rfl, ⟨hn, ha, hx, hp⟩, hk, rfl⟩
  · rintro ⟨members, network, asset, amount, payTo, k, rfl, h, hk, rfl⟩
    exact ⟨network, ⟨members, rfl, h.network⟩, asset, ⟨members, rfl, h.asset⟩, amount,
      ⟨members, rfl, h.amount⟩, k, hk, payTo, ⟨members, rfl, h.payTo⟩, rfl⟩

theorem termsIn_payloadOf (G : Runtime) (terms : PaidTerms) :
    termsIn G (payloadOf terms) = .ok terms := by
  have hlookup : ∀ {k : Text} {v : Value}, (k, v) ∈ [(text "network", Json.str terms.network),
      (text "asset", .str terms.asset), (text "amount", .num (.int terms.amount)),
      (text "payTo", .str terms.payTo), (text "payer", terms.payer)] →
      List.lookup k [(text "network", Json.str terms.network),
      (text "asset", .str terms.asset), (text "amount", .num (.int terms.amount)),
      (text "payTo", .str terms.payTo), (text "payer", terms.payer)] = some v := by
    intro k v hmem
    refine Json.lookup_of_mem ?_ hmem
    simp only [List.map_cons, List.map_nil]
    exact names_nodup
  refine termsIn_eq_ok.mpr ⟨_, .str terms.network, .str terms.asset, .num (.int terms.amount),
    .str terms.payTo, terms.amount, rfl, ⟨hlookup (by simp), hlookup (by simp),
      hlookup (by simp), hlookup (by simp)⟩, rfl, ?_⟩
  rw [hlookup (k := text "payer") (v := terms.payer) (by simp)]
  rfl

/-! ## There and back -/

theorem shortInts_termsDoc {network asset payTo : Text} {amount : Int} {payer : Option Text}
    (hshort : (natText amount.natAbs).length ≤ 4300) :
    ShortInts (termsDoc network asset amount payTo payer).value := by
  have hlit : ShortLit (.ofInt amount) := by
    have hlen := congrArg List.length (Digits.text_eq (Digits.ofNat amount.natAbs))
    rw [Digits.value_ofNat, Digits.text, List.length_map] at hlen
    rw [ShortLit, IntLit.ofInt, hlen]
    exact hshort
  rw [termsDoc, Doc.value_obj, shortInts_obj]
  simp only [List.map_cons, List.map_nil, List.forall_mem_cons, nextMember, Doc.value]
  refine ⟨trivial, trivial, hlit, trivial, ?_, fun _ h => by cases h⟩
  cases payer <;> trivial

/-- The terms that `parse_x_payment` reads back: the amount can be written, and no string has a
high half of a surrogate pair before a low one. -/
theorem roundTrip_iff (G : Runtime) (network asset : Text) (amount : Int) (payTo : Text)
    (payer : Option Text) :
    (∃ x, encodeXPayment G ⟨network, asset, amount, payTo, payerValue payer⟩ = .ok x ∧
      parseXPayment G x = .ok ⟨network, asset, amount, payTo, payerValue payer⟩) ↔
    (natText amount.natAbs).length ≤ 4300 ∧ NoPair network ∧ NoPair asset ∧ NoPair payTo ∧
      ∀ s ∈ payer, NoPair s := by
  have hread : (natText amount.natAbs).length ≤ 4300 →
      encodeXPayment G ⟨network, asset, amount, payTo, payerValue payer⟩ =
        .ok (base64Url (utf8 (termsDoc network asset amount payTo payer).text)) ∧
      parseXPayment G (base64Url (utf8 (termsDoc network asset amount payTo payer).text)) =
        .ok ⟨joinPairs network, joinPairs asset, amount, joinPairs payTo,
          payerValue (payer.map joinPairs)⟩ := by
    intro hshort
    refine ⟨by rw [encodeXPayment, dumps_payload hshort]; rfl, parseXPayment_eq_ok.mpr
      ⟨_, ?_, termsIn_payloadOf G _⟩⟩
    rw [readPayload, urlsafeB64decode_base64Url, ok_bind,
      jsonLoads_doc _ _ (shortInts_termsDoc hshort), termsDoc_value]
  have hpayer : payerValue (payer.map joinPairs) = payerValue payer ↔
      ∀ s ∈ payer, NoPair s := by
    cases payer with
    | none => exact iff_of_true rfl nofun
    | some s => simp [payerValue, joinPairs_eq_self_iff]
  constructor
  · rintro ⟨x, hencode, hparse⟩
    have hshort : (natText amount.natAbs).length ≤ 4300 := by
      by_contra hlong
      have hthrow : ∃ e, intRepr amount = .error e := ⟨_, if_pos (by omega)⟩
      obtain ⟨e, he⟩ := hthrow
      simp only [encodeXPayment, payloadOf, dumps, dumpsMembers, he, pure_bind, error_bind]
        at hencode
      cases hencode
    obtain ⟨hx, hback⟩ := hread hshort
    rw [hx] at hencode
    rw [← Except.ok.inj hencode, hback] at hparse
    simp only [Except.ok.injEq, PaidTerms.mk.injEq, joinPairs_eq_self_iff, hpayer] at hparse
    obtain ⟨hn, ha, -, hp, hq⟩ := hparse
    exact ⟨hshort, hn, ha, hp, hq⟩
  · rintro ⟨hshort, hn, ha, hp, hq⟩
    obtain ⟨hx, hback⟩ := hread hshort
    refine ⟨_, hx, ?_⟩
    rw [hback, joinPairs_eq_self_iff.mpr hn, joinPairs_eq_self_iff.mpr ha,
      joinPairs_eq_self_iff.mpr hp, hpayer.mpr hq]

/-! ## Agreed equals paid -/

/-- A value is refused, or passes the check only when its payload holds the quoted terms. -/
def AgreedIsPaid (G : Runtime) (xPayment : Text) : Prop :=
  Raises .amountMismatchError (parseXPayment G xPayment) ∧
  ∀ req : PaymentRequirements, 0 < req.amount →
    (parseXPayment G xPayment >>= fun terms => enforceAgreedEqualsPaid terms req) = .ok () →
    ∃ members, readPayload G xPayment = .ok (.obj members) ∧
      HasTerms members (.str req.network) (.str req.asset) (.num (.int req.amount))
        (.str req.payTo)

/-- The bits of an infinite `float`. -/
def IsInfinite (bits : UInt64) : Prop :=
  bits.toNat / 2 ^ 52 % 2048 = 2047 ∧ bits.toNat % 2 ^ 52 = 0

/-- The members are not read as what they are not: the amount is no infinity, and when `int()`
makes a positive number of it, it is that number and the others are strings. -/
structure Literal (G : Runtime) (members : List (Text × Value)) : Prop where
  finite : ∀ network asset bits, members.lookup (text "network") = some network →
    members.lookup (text "asset") = some asset →
    members.lookup (text "amount") = some (.num (.float bits)) → ¬ IsInfinite bits
  plain : ∀ network asset amount payTo k, HasTerms members network asset amount payTo →
    pyInt G amount = .ok k → 0 < k →
    ∃ n a p, network = .str n ∧ asset = .str a ∧ amount = .num (.int k) ∧ payTo = .str p

theorem enforceAgreedEqualsPaid_eq_ok {terms : PaidTerms} {req : PaymentRequirements} :
    enforceAgreedEqualsPaid terms req = .ok () ↔ terms.network = req.network ∧
      terms.asset = req.asset ∧ terms.amount = req.amount ∧ terms.payTo = req.payTo := by
  rw [enforceAgreedEqualsPaid, guard_eq_ok, not_not]
  simp only [Prod.mk.injEq, pure_eq_ok, and_true]

theorem readPayload_error {G : Runtime}
    (hdecode : ∀ enc b, Raises .unicodeDecodeError (G.json.decode enc b)) {xPayment : Text}
    {e : Exc}
    (h : readPayload G xPayment = .error e) : e.cls.isA .valueError = true := by
  rw [readPayload] at h
  cases hraw : urlsafeB64decode (xPayment ++ padding xPayment) with
  | error e' =>
    rw [hraw, error_bind] at h
    rw [← Except.error.inj h]
    exact urlsafeB64decode_error hraw
  | ok raw =>
    rw [hraw, ok_bind] at h
    exact jsonLoads_error hdecode h

/-- What `parse_x_payment` catches while it reads the members. -/
def Caught (e : Exc) : Prop := [ExcClass.keyError, .typeError, .valueError].any e.cls.isA = true

theorem subscript_caught (G : Runtime) (data : Value) (key : Text) :
    Yields (fun v => subscript G data key = .ok v) Caught (subscript G data key) := by
  have hyields : ∀ x : Py Value, (∀ e, x = .error e → Caught e) →
      Yields (fun v => x = .ok v) Caught x := by
    rintro (e | v) h
    · exact h e rfl
    · rfl
  refine hyields _ fun e h => ?_
  cases data with
  | obj members =>
    rw [subscript] at h
    cases hv : members.lookup key with
    | none =>
      simp only [hv] at h
      rw [← Except.error.inj h]
      rfl
    | some v =>
      simp only [hv] at h
      cases h
  | _ =>
    rw [← Except.error.inj h]
    rfl

theorem intOfStr_caught (G : Runtime) (s : Text) :
    Yields (fun _ => True) Caught (intOfStr G s) := by
  rw [intOfStr]
  dsimp only
  split
  · exact .throw rfl
  · exact .throw rfl
  · exact .guard (fun _ => rfl) fun _ => .guard (fun _ => rfl) fun _ => trivial

/-- `int()` raises what is caught, except for an infinite `float`. -/
theorem pyInt_caught {G : Runtime} {v : Value}
    (hfinite : ∀ bits, v = .num (.float bits) → ¬ IsInfinite bits) :
    Yields (fun _ => True) Caught (pyInt G v) := by
  cases v with
  | num n =>
    cases n with
    | int n => trivial
    | float bits =>
      rw [pyInt, intOfFloat]
      dsimp only
      by_cases he : bits.toNat / 2 ^ 52 % 2048 = 2047
      · rw [if_pos he, if_neg fun hm => hfinite bits rfl ⟨he, hm⟩]
        exact .throw rfl
      · rw [if_neg he]
        exact .pure trivial
  | str s => exact intOfStr_caught G s
  | bool b => trivial
  | null => exact .throw rfl
  | arr vs => exact .throw rfl
  | obj ms => exact .throw rfl

theorem pyInt_infinite {G : Runtime} {bits : UInt64} (h : IsInfinite bits) :
    ∃ e, pyInt G (.num (.float bits)) = .error e ∧ e.cls = .overflowError := by
  rw [pyInt, intOfFloat]
  dsimp only
  rw [if_pos h.1, if_pos h.2]
  exact ⟨_, rfl, rfl⟩

theorem raises_parseXPayment_iff {G : Runtime}
    (hdecode : ∀ enc b, Raises .unicodeDecodeError (G.json.decode enc b)) {xPayment : Text} :
    Raises .amountMismatchError (parseXPayment G xPayment) ↔
      ∀ members, readPayload G xPayment = .ok (.obj members) → ∀ network asset bits,
        members.lookup (text "network") = some network →
        members.lookup (text "asset") = some asset →
        members.lookup (text "amount") = some (.num (.float bits)) → ¬ IsInfinite bits := by
  have hread : Raises .amountMismatchError (reraise [.valueError, .jsonDecodeError]
      (fun exc => amountMismatchError (text "malformed X-PAYMENT: " ++ exc.msg))
      (readPayload G xPayment)) := by
    refine raises_reraise_all (fun e h => ?_) fun _ => rfl
    rw [List.any_cons, readPayload_error hdecode h, Bool.true_or]
  rw [parseXPayment_eq, raises_bind_iff hread]
  simp only [reraise_eq_ok]
  constructor
  · intro h members hdata network asset bits hn ha hx hinf
    obtain ⟨e, he, hcls⟩ := pyInt_infinite (G := G) hinf
    have hterms : termsIn G (.obj members) = .error e := by
      simp only [termsIn, subscript, hn, ha, hx, pure_bind, he, error_bind]
    have hraise := h _ hdata e
    rw [hterms, reraise, hcls, if_neg (by decide)] at hraise
    exact absurd (hraise rfl) (by decide)
  · intro h data hdata
    have hcaught : Yields (fun _ => True) Caught (termsIn G data) := by
      refine .bind (subscript_caught G data _) fun network hn _ => ?_
      refine .bind (subscript_caught G data _) fun asset ha _ => ?_
      refine .bind (subscript_caught G data _) fun amount hx _ => ?_
      obtain ⟨members, rfl, hnetwork⟩ := subscript_eq_ok.mp hn
      obtain ⟨_, ⟨⟩, hasset⟩ := subscript_eq_ok.mp ha
      obtain ⟨_, ⟨⟩, hamount⟩ := subscript_eq_ok.mp hx
      refine .bind (pyInt_caught fun bits hbits => ?_) fun k _ _ => ?_
      · exact h members hdata network asset bits hnetwork hasset (hbits ▸ hamount)
      · exact .bind (subscript_caught G _ _) fun payTo _ _ => .pure trivial
    refine raises_reraise_all (fun e he => ?_) fun _ => rfl
    rw [he] at hcaught
    exact hcaught

/-- The payloads for which the check means what it says, and the terms that survive a round
trip. -/
theorem agreed_equals_paid_iff (G : Runtime)
    (hdecode : ∀ enc b, Raises .unicodeDecodeError (G.json.decode enc b)) :
    (∀ xPayment, AgreedIsPaid G xPayment ↔
      ∀ members, readPayload G xPayment = .ok (.obj members) → Literal G members) ∧
    ∀ network asset amount payTo payer,
      (∃ x, encodeXPayment G ⟨network, asset, amount, payTo, payerValue payer⟩ = .ok x ∧
        parseXPayment G x = .ok ⟨network, asset, amount, payTo, payerValue payer⟩) ↔
      (natText amount.natAbs).length ≤ 4300 ∧ NoPair network ∧ NoPair asset ∧ NoPair payTo ∧
        ∀ s ∈ payer, NoPair s := by
  refine ⟨fun xPayment => ?_, roundTrip_iff G⟩
  rw [AgreedIsPaid, raises_parseXPayment_iff hdecode]
  constructor
  · rintro ⟨hraises, hpaid⟩ members hdata
    refine ⟨hraises members hdata, fun network asset amount payTo k hterms hk hpos => ?_⟩
    -- The requirements that quote what the members convert to.
    have hparse := parseXPayment_eq_ok.mpr ⟨_, hdata, termsIn_eq_ok.mpr
      ⟨members, network, asset, amount, payTo, k, rfl, hterms, hk, rfl⟩⟩
    obtain ⟨members', hdata', hquoted⟩ := hpaid
      ⟨[], pyStr G network, pyStr G asset, k, pyStr G payTo, [], 0⟩ hpos
      (by rw [hparse, ok_bind]; exact enforceAgreedEqualsPaid_eq_ok.mpr ⟨rfl, rfl, rfl, rfl⟩)
    obtain ⟨⟩ := Except.ok.inj (hdata.symm.trans hdata')
    exact ⟨_, _, _, Option.some.inj (hterms.network.symm.trans hquoted.network),
      Option.some.inj (hterms.asset.symm.trans hquoted.asset),
      Option.some.inj (hterms.amount.symm.trans hquoted.amount),
      Option.some.inj (hterms.payTo.symm.trans hquoted.payTo)⟩
  · intro hliteral
    refine ⟨fun members hdata => (hliteral members hdata).finite, fun req hpos hcheck => ?_⟩
    obtain ⟨terms, hparse, henforce⟩ := bind_eq_ok.mp hcheck
    obtain ⟨data, hdata, hin⟩ := parseXPayment_eq_ok.mp hparse
    obtain ⟨members, network, asset, amount, payTo, k, rfl, hterms, hk, rfl⟩ :=
      termsIn_eq_ok.mp hin
    obtain ⟨hn, ha, rfl, hp⟩ := enforceAgreedEqualsPaid_eq_ok.mp henforce
    obtain ⟨n, a, p, rfl, rfl, rfl, rfl⟩ :=
      (hliteral members hdata).plain network asset amount payTo _ hterms hk hpos
    have hquoted : n = req.network ∧ a = req.asset ∧ p = req.payTo := ⟨hn, ha, hp⟩
    obtain ⟨rfl, rfl, rfl⟩ := hquoted
    exact ⟨members, hdata, hterms⟩

/-- The interpreter on payloads of plain ASCII without fractions. -/
def plainRuntime : Runtime where
  py := bareRuntime
  json := ⟨fun _ _ => .error ⟨.unicodeDecodeError, []⟩, fun _ => 0, fun _ => []⟩
  jwtDecode := fun _ _ _ _ _ _ => .error ⟨.pyJwtError, []⟩
  decimalDigit _ := none
  later t ttl := t + ttl

theorem plainRuntime_decode (enc : Encoding) (b : Bytes) :
    Raises .unicodeDecodeError (plainRuntime.json.decode enc b) :=
  .throw []

/-- The payload `{"network":"n","asset":"a","amount":true,"payTo":"p"}`. -/
def truePayment : Text :=
  text "eyJuZXR3b3JrIjoibiIsImFzc2V0IjoiYSIsImFtb3VudCI6dHJ1ZSwicGF5VG8iOiJwIn0"

/-- The payload `{"network":"n","asset":"a","amount":1,"payTo":"p"}`. -/
def onePayment : Text :=
  text "eyJuZXR3b3JrIjoibiIsImFzc2V0IjoiYSIsImFtb3VudCI6MSwicGF5VG8iOiJwIn0"

/-- The payload `{"network":"n","asset":"a","amount":Infinity,"payTo":"p"}`. -/
def endlessPayment : Text :=
  text "eyJuZXR3b3JrIjoibiIsImFzc2V0IjoiYSIsImFtb3VudCI6SW5maW5pdHksInBheVRvIjoicCJ9"

def tokenMembers (amount : Value) : List (Text × Value) :=
  [(text "network", .str (text "n")), (text "asset", .str (text "a")), (text "amount", amount),
    (text "payTo", .str (text "p"))]

theorem readPayload_true :
    readPayload plainRuntime truePayment = .ok (.obj (tokenMembers (.bool true))) := by
  decide +kernel

theorem readPayload_one :
    readPayload plainRuntime onePayment = .ok (.obj (tokenMembers (.num (.int 1)))) := by
  decide +kernel

theorem hasTerms_token (amount : Value) : HasTerms (tokenMembers amount) (.str (text "n"))
    (.str (text "a")) amount (.str (text "p")) :=
  ⟨rfl, rfl, rfl, rfl⟩

theorem agreed_equals_paid_one : AgreedIsPaid plainRuntime onePayment ∧
    ∃ x, encodeXPayment plainRuntime ⟨text "n", text "a", 1, text "p", payerValue none⟩ = .ok x ∧
      parseXPayment plainRuntime x = .ok ⟨text "n", text "a", 1, text "p", payerValue none⟩ := by
  have hagreed := agreed_equals_paid_iff plainRuntime plainRuntime_decode
  have hone : ∀ c : CodePoint, NoPair [c] := by
    intro c h l a b heq
    cases a <;> simp at heq
  refine ⟨(hagreed.1 onePayment).mpr fun members hdata => ?_,
    (hagreed.2 _ _ _ _ none).mpr ⟨by decide, hone _, hone _, hone _, nofun⟩⟩
  obtain ⟨⟩ := Except.ok.inj (readPayload_one.symm.trans hdata)
  refine ⟨fun network asset bits _ _ hx => ?_, fun network asset amount payTo k h hk _ => ?_⟩
  · cases Option.some.inj ((hasTerms_token (.num (.int 1))).amount.symm.trans hx)
  · obtain rfl := Option.some.inj ((hasTerms_token (.num (.int 1))).network.symm.trans h.network)
    obtain rfl := Option.some.inj ((hasTerms_token (.num (.int 1))).asset.symm.trans h.asset)
    obtain rfl := Option.some.inj ((hasTerms_token (.num (.int 1))).amount.symm.trans h.amount)
    obtain rfl := Option.some.inj ((hasTerms_token (.num (.int 1))).payTo.symm.trans h.payTo)
    obtain rfl := Except.ok.inj hk
    exact ⟨_, _, _, rfl, rfl, rfl, rfl⟩

/-- A quote of one unit is paid with `true`, an infinite amount raises `OverflowError`, and two
halves of a pair come back as one character. -/
theorem paid_is_not_agreed :
    ¬ AgreedIsPaid plainRuntime truePayment ∧
    (∃ e, parseXPayment plainRuntime endlessPayment = .error e ∧ e.cls = .overflowError) ∧
    ¬ ∃ x, encodeXPayment plainRuntime ⟨[0xD83D, 0xDE00], [], 1, [], .null⟩ = .ok x ∧
      parseXPayment plainRuntime x = .ok ⟨[0xD83D, 0xDE00], [], 1, [], .null⟩ := by
  refine ⟨fun h => ?_, ?_, fun h => ?_⟩
  · obtain ⟨members, hdata, hterms⟩ := h.2
      ⟨[], text "n", text "a", 1, text "p", [], 0⟩ (by decide) (by decide +kernel)
    obtain ⟨⟩ := Except.ok.inj (readPayload_true.symm.trans hdata)
    cases Option.some.inj ((hasTerms_token (.bool true)).amount.symm.trans hterms.amount)
  · exact ⟨⟨.overflowError, text "cannot convert float infinity to integer"⟩,
      by decide +kernel, rfl⟩
  · have hpair := ((roundTrip_iff plainRuntime [0xD83D, 0xDE00] [] 1 [] none).mp h).2.1
    exact hpair 0xD83D 0xDE00 [] [] rfl (by decide)

end Shadownet.X402
