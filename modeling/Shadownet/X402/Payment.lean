import Shadownet.Python.Crypto
import Shadownet.Python.Json

/-!
# Quoted and paid terms

`requirements.py` and `settlement.py` of `shadownet_x402`: the requirements the resource
server quotes from its settings, the terms read from an `X-PAYMENT` value, and the check that
the two agree.
-/

namespace Shadownet.X402

open Foundation Python

/-- What the package takes from outside this repository, beside what the SDK takes. -/
structure Runtime where
  py : Python.Runtime
  json : JsonRuntime
  /-- `jwt.decode(token, key, algorithms=["EdDSA"], audience=…, leeway=…, options=…)` with the
  claims `require` names, at a time. -/
  jwtDecode : Text → Bytes → Text → Int → List Text → ℚ → Py Dict
  /-- `unicodedata.decimal` of a character that is not ASCII. -/
  decimalDigit : CodePoint → Option Nat
  /-- `clock() + ttl`, a sum of a `float` and an `int`. -/
  later : ℚ → Int → ℚ

/-- `Settings`, the fields the paywall reads. -/
structure Settings where
  networkCaip2 : Text
  assetId : Int
  payTo : Option Text
  priceMicro : Int
  nonceTtlSeconds : Int

/-! ## Requirements -/

/-- `PaymentRequirements`. -/
structure PaymentRequirements where
  scheme : Text
  network : Text
  asset : Text
  amount : Int
  payTo : Text
  resource : Text
  maxTimeoutSeconds : Int
  deriving DecidableEq

def buildPaymentRequirements (settings : Settings) (resourceUrl : Text) :
    Py PaymentRequirements :=
  match settings.payTo with
  | none => throw ⟨.settlementError, text "settings.pay_to is required to quote a payment"⟩
  | some payTo =>
    pure ⟨text "exact", settings.networkCaip2, decimal settings.assetId, settings.priceMicro, payTo,
      resourceUrl, 60⟩

theorem buildPaymentRequirements_amount {settings : Settings} {resourceUrl : Text}
    {req : PaymentRequirements} (h : buildPaymentRequirements settings resourceUrl = .ok req) :
    req.amount = settings.priceMicro := by
  unfold buildPaymentRequirements at h
  split at h
  · cases h
  · rw [← Except.ok.inj h]

theorem buildPaymentRequirements_payTo {settings : Settings} {resourceUrl : Text}
    {req : PaymentRequirements} (h : buildPaymentRequirements settings resourceUrl = .ok req) :
    settings.payTo ≠ none := by
  unfold buildPaymentRequirements at h
  split at h
  · cases h
  · next payTo hpay => simp [hpay]

/-- The price can be quoted as soon as there is somebody to pay. -/
theorem buildPaymentRequirements_ok {settings : Settings} (h : settings.payTo ≠ none)
    (resourceUrl : Text) : ∃ req, buildPaymentRequirements settings resourceUrl = .ok req := by
  obtain ⟨payTo, hpay⟩ := Option.ne_none_iff_exists'.mp h
  rw [buildPaymentRequirements, hpay]
  exact ⟨_, rfl⟩

/-! ## Conversions -/

/-- `str(v)`. -/
def pyStr (G : Runtime) : Value → Text
  | .str s => s
  | v => G.py.repr v

def invalidLiteral (G : Runtime) (s : Text) : Exc :=
  ⟨.valueError, text "invalid literal for int() with base 10: " ++ G.py.reprStr s⟩

/-- The value of a decimal digit of any script. -/
def digitOf (G : Runtime) (c : CodePoint) : Option Nat :=
  if c.IsAscii then (if isDigit c then some (c.val - 48) else none) else G.decimalDigit c

/-- The digits a numeral begins with, where `_` may stand between two of them, and the rest;
`none` when an `_` stands elsewhere. -/
def scanDigits (G : Runtime) : Text → Option (List Nat × Text)
  | [] => some ([], [])
  | c :: s =>
    match digitOf G c with
    | none => if c = 95 then none else some ([], c :: s)
    | some d =>
      match s with
      | [] => some ([d], [])
      | c' :: s' =>
        if c' = 95 then
          match scanDigits G s' with
          | some ([], _) => none
          | r => r.map fun (ds, rest) => (d :: ds, rest)
        else (scanDigits G (c' :: s')).map fun (ds, rest) => (d :: ds, rest)

/-- `int(s)` of a `str`. -/
def intOfStr (G : Runtime) (s : Text) : Py Int :=
  let body := s.dropWhile isSpace
  let (neg, body) : Bool × Text := match body with
    | 45 :: rest => (true, rest)
    | 43 :: rest => (false, rest)
    | _ => (false, body)
  match scanDigits G body with
  | none | some ([], _) => throw (invalidLiteral G s)
  | some (ds, rest) =>
    if 4300 < ds.length then throw (digitsExc ds.length)
    else if rest.dropWhile isSpace ≠ [] then throw (invalidLiteral G s)
    else
      let n : Nat := ds.foldl (fun n d => n * 10 + d) 0
      pure (if neg then -(n : Int) else n)

/-- `int(x)` of a `float`, by its bits: the fraction is cut off. -/
def intOfFloat (bits : UInt64) : Py Int :=
  let e := (bits.toNat / 2 ^ 52) % 2048
  let m := bits.toNat % 2 ^ 52
  if e = 2047 then
    if m = 0 then throw ⟨.overflowError, text "cannot convert float infinity to integer"⟩
    else throw ⟨.valueError, text "cannot convert float NaN to integer"⟩
  else
    let mantissa := if e = 0 then m else m + 2 ^ 52
    let shift := if e = 0 then 1 else e
    let n : Nat :=
      if 1075 ≤ shift then mantissa * 2 ^ (shift - 1075) else mantissa / 2 ^ (1075 - shift)
    pure (if bits.toNat < 2 ^ 63 then (n : Int) else -n)

/-- `int(v)`. -/
def pyInt (G : Runtime) : Value → Py Int
  | .num (.int n) => pure n
  | .num (.float bits) => intOfFloat bits
  | .bool b => pure (if b then 1 else 0)
  | .str s => intOfStr G s
  | v => throw ⟨.typeError, text "int() argument must be a string, a bytes-like object or a " ++
      text "real number, not '" ++ typeName v ++ text "'"⟩

/-- `data[key]`. -/
def subscript (G : Runtime) (data : Value) (key : Text) : Py Value :=
  match data with
  | .obj members =>
    match members.lookup key with
    | some v => pure v
    | none => throw ⟨.keyError, G.py.reprStr key⟩
  | .arr _ => throw ⟨.typeError, text "list indices must be integers or slices, not str"⟩
  | .str _ => throw ⟨.typeError, text "string indices must be integers, not 'str'"⟩
  | v => throw ⟨.typeError, text "'" ++ typeName v ++ text "' object is not subscriptable"⟩

/-! ## Settlement -/

/-- `PaidTerms`. -/
structure PaidTerms where
  network : Text
  asset : Text
  amount : Int
  payTo : Text
  payer : Value
  deriving DecidableEq

/-- `SettleOutcome`. -/
structure SettleOutcome where
  success : Bool
  transaction : Option Text
  payer : Option Text
  network : Text
  errorReason : Option Text
  deriving DecidableEq

def amountMismatchError (msg : Text) : Exc := ⟨.amountMismatchError, msg⟩

/-- `parse_x_payment`. -/
def parseXPayment (G : Runtime) (xPayment : Text) : Py PaidTerms := do
  let data ← reraise [.valueError, .jsonDecodeError]
    (fun exc => amountMismatchError (text "malformed X-PAYMENT: " ++ exc.msg))
    (do
      let raw ← urlsafeB64decode (xPayment ++ padding xPayment)
      jsonLoads G.json raw)
  reraise [.keyError, .typeError, .valueError]
    (fun exc => amountMismatchError (text "X-PAYMENT missing required fields: " ++ exc.msg))
    (do
      let network ← subscript G data (text "network")
      let asset ← subscript G data (text "asset")
      let amount ← subscript G data (text "amount")
      let amount ← pyInt G amount
      let payTo ← subscript G data (text "payTo")
      let payer := match data with
        | .obj members => (members.lookup (text "payer")).getD .null
        | _ => .null
      pure ⟨pyStr G network, pyStr G asset, amount, pyStr G payTo, payer⟩)

def enforceAgreedEqualsPaid (terms : PaidTerms) (req : PaymentRequirements) : Py Unit :=
  if (terms.network, terms.asset, terms.amount, terms.payTo) ≠
      (req.network, req.asset, req.amount, req.payTo) then
    throw (amountMismatchError (text "signed payment does not match the agreed requirements"))
  else pure ()

end Shadownet.X402
