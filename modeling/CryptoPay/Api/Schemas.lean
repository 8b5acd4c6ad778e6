import CryptoPay.Api.Payments
import CryptoPay.Data.Digits

/-!
# What the schemas accept

The zod schemas of `packages/validation/src` that the modelled requests pass
through: `decimalAmountSchema` and `createInvoiceSchema` of
`invoice.schemas.ts`, `metadataSchema` of `metadata.schema.ts` and
`simulatePaymentSchema` of `simulate-payment.schemas.ts`. What zod itself
computes about a URL is a parameter.

Results:
* `decimalAmount_pos`: an accepted amount is more than zero.
* `decimalAmount_value`: its value is that of its digits, at the scale of
  `Decimal`.
-/

namespace CryptoPay.Api

/-! ## Strings -/

/-- The white space that `String.prototype.trim` removes: `WhiteSpace` and
    `LineTerminator` of ECMAScript. -/
def isWhitespace (c : Char) : Bool :=
  [0x9, 0xA, 0xB, 0xC, 0xD, 0x20, 0xA0, 0x1680, 0x2028, 0x2029, 0x202F, 0x205F, 0x3000,
    0xFEFF].contains c.toNat || (0x2000 ≤ c.toNat && c.toNat ≤ 0x200A)

/-- `s.trim()`. -/
def trim (s : String) : String :=
  String.ofList (((s.toList.dropWhile isWhitespace).reverse.dropWhile isWhitespace).reverse)

/-- `s.length`: the number of UTF-16 code units. -/
def length (s : String) : ℕ :=
  (s.toList.map fun c => if c.toNat < 0x10000 then 1 else 2).sum

/-- `z.string().trim().min(lower).max(upper)`. -/
def trimmed (lower upper : ℕ) (s : String) : Option String :=
  if lower ≤ length (trim s) && length (trim s) ≤ upper then some (trim s) else none

/-- `.optional()`. -/
def optional {α β : Type} (schema : α → Option β) : Option α → Option (Option β)
  | none => some none
  | some a => (schema a).map some

/-! ## Amounts -/

/-- The regular expression's `\d`. -/
def isDigit (c : Char) : Bool := '0' ≤ c && c ≤ '9'

/-- `^\d+(\.\d{1,8})?$`: the digits before and after the point. -/
def decimalParts (text : List Char) : Option (List Char × List Char) :=
  let whole := text.takeWhile isDigit
  if whole = [] then none
  else match text.dropWhile isDigit with
    | [] => some (whole, [])
    | '.' :: fraction =>
      if fraction.all isDigit && 1 ≤ fraction.length && fraction.length ≤ 8 then
        some (whole, fraction)
      else none
    | _ :: _ => none

/-- `new Prisma.Decimal(text)` of a text with these digits. -/
def decimalOf (whole fraction : List Char) : Decimal :=
  ⟨Data.decimalValue whole * 10 ^ 8 + Data.decimalValue fraction * 10 ^ (8 - fraction.length)⟩

/-- `decimalAmountSchema` (invoice.schemas.ts, lines 6–10). `Number(value) > 0`
    says that a digit is not zero: no such number is rounded to zero. -/
def decimalAmount (text : String) : Option DecimalAmount :=
  match decimalParts (trim text).toList with
  | none => none
  | some (whole, fraction) =>
    if 0 < (decimalOf whole fraction).units then some ⟨trim text, decimalOf whole fraction⟩
    else none

example : decimalAmount " 49.00 " = some ⟨"49.00", ⟨4900000000⟩⟩ := by decide
example : decimalAmount "0.00" = none := by decide
example : decimalAmount "1.123456789" = none := by decide

/-- The value of an accepted amount is that of its digits. -/
theorem decimalAmount_value {text : String} {a : DecimalAmount} (h : decimalAmount text = some a) :
    ∃ whole fraction, decimalParts (trim text).toList = some (whole, fraction) ∧
      a = ⟨trim text, decimalOf whole fraction⟩ ∧ 0 < (decimalOf whole fraction).units := by
  unfold decimalAmount at h
  split at h
  · cases h
  · rename_i whole fraction hparts
    split_ifs at h with hpos
    exact ⟨whole, fraction, hparts, (Option.some.inj h).symm, hpos⟩

/-- An accepted amount is more than zero. -/
theorem decimalAmount_pos {text : String} {a : DecimalAmount} (h : decimalAmount text = some a) :
    0 < a.value.units := by
  obtain ⟨whole, fraction, -, rfl, hpos⟩ := decimalAmount_value h
  exact hpos

/-! ## Requests -/

/-- `METADATA_MAX_KEYS`, `METADATA_MAX_KEY_LENGTH` and `METADATA_MAX_VALUE_LENGTH`
    (metadata.schema.ts, lines 3–5). -/
def METADATA_MAX_KEYS : ℕ := 20
def METADATA_MAX_KEY_LENGTH : ℕ := 40
def METADATA_MAX_VALUE_LENGTH : ℕ := 500

/-- `metadataSchema` (metadata.schema.ts, lines 11–18). -/
def metadataAccepts (metadata : Metadata) : Bool :=
  metadata.length ≤ METADATA_MAX_KEYS && metadata.all fun (key, value) =>
    1 ≤ length key && length key ≤ METADATA_MAX_KEY_LENGTH && match value with
      | .string text => length text ≤ METADATA_MAX_VALUE_LENGTH
      | _ => true

/-- The body of a request to create an invoice: an object with these fields. -/
structure CreateInvoiceBody where
  externalId : Option String
  description : Option String
  amount : String
  currency : String
  token : String
  network : String
  successUrl : Option String
  cancelUrl : Option String
  metadata : Option Metadata
  deriving DecidableEq, Repr

/-- `z.string().trim().url().max(2048)`. -/
def urlSchema (isUrl : String → Bool) (s : String) : Option String :=
  if isUrl (trim s) && length (trim s) ≤ 2048 then some (trim s) else none

/-- `createInvoiceSchema` (invoice.schemas.ts, lines 12–22). -/
def createInvoiceSchema (isUrl : String → Bool) (body : CreateInvoiceBody) :
    Option CreateInvoiceInput := do
  let externalId ← optional (trimmed 1 255) body.externalId
  let description ← optional (trimmed 0 500) body.description
  let amount ← decimalAmount body.amount
  let currency ← trimmed 1 10 body.currency
  let token ← trimmed 1 20 body.token
  let network ← trimmed 1 40 body.network
  let successUrl ← optional (urlSchema isUrl) body.successUrl
  let cancelUrl ← optional (urlSchema isUrl) body.cancelUrl
  let metadata ← optional (fun m => if metadataAccepts m then some m else none) body.metadata
  return ⟨externalId, description, amount, currency, token, network, successUrl, cancelUrl,
    metadata⟩

/-- An accepted body has an accepted amount. -/
theorem createInvoiceSchema_amount {isUrl : String → Bool} {body : CreateInvoiceBody}
    {input : CreateInvoiceInput} (h : createInvoiceSchema isUrl body = some input) :
    decimalAmount body.amount = some input.amount := by
  unfold createInvoiceSchema at h
  simp only [Option.bind_eq_bind, Option.bind_eq_some_iff] at h
  obtain ⟨_, -, _, -, amount, hamount, _, -, _, -, _, -, _, -, _, -, _, -, heq⟩ := h
  cases heq
  exact hamount

/-- The body of a request to simulate a payment. -/
structure SimulatePaymentBody where
  amount : Option String
  deriving DecidableEq, Repr

/-- `simulatePaymentSchema` (simulate-payment.schemas.ts, lines 9–11). -/
def simulatePaymentSchema (body : SimulatePaymentBody) : Option SimulatePaymentInput :=
  (optional decimalAmount body.amount).map .mk

end CryptoPay.Api
