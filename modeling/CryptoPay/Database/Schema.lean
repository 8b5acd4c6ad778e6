import CryptoPay.Data.Table
import CryptoPay.Payments.Amount
import CryptoPay.Payments.StateMachines

/-!
# The payment tables

The rows of `packages/database/prisma/schema.prisma` that payment processing
reads or writes: `Invoice`, `Payment`, `MerchantWalletAddress`,
`BlockchainScanCursor`, `WebhookEvent` and `AuditLog`. `DateTime` values are
milliseconds since the epoch; `updatedAt` is kept where code reads it
(`Payment`). Rows of the modelled tables are never deleted.
-/

namespace CryptoPay

open Data

/-- A `DateTime`, in milliseconds. -/
abbrev Time := ℤ

/-- A primitive value of merchant metadata (metadata.schema.ts, lines 11–19);
    a number is kept as its JSON literal. -/
inductive MetadataValue where
  | string (value : String)
  | number (literal : String)
  | bool (value : Bool)
  | null
  deriving DecidableEq, Repr

abbrev Metadata := List (String × MetadataValue)

/-- `model Invoice` (schema.prisma, lines 263–308). -/
structure Invoice where
  id : String
  organizationId : String
  externalId : Option String
  status : InvoiceStatus
  description : Option String
  amount : Decimal
  currency : String
  token : String
  network : String
  paymentAddress : String
  successUrl : Option String
  cancelUrl : Option String
  metadata : Option Metadata
  expiresAt : Time
  paidAt : Option Time
  createdAt : Time
  deriving DecidableEq, Repr

/-- `model Payment` (schema.prisma, lines 312–347). -/
structure Payment where
  id : String
  invoiceId : String
  organizationId : String
  network : String
  token : String
  expectedAmount : Decimal
  receivedAmount : Option Decimal
  txHash : Option String
  fromAddress : Option String
  toAddress : String
  blockNumber : Option ℤ
  confirmations : ℤ
  status : PaymentStatus
  detectedAt : Option Time
  confirmedAt : Option Time
  createdAt : Time
  updatedAt : Time
  deriving DecidableEq, Repr

/-- `model MerchantWalletAddress` (schema.prisma, lines 355–370). -/
structure MerchantWalletAddress where
  id : String
  organizationId : String
  network : String
  token : String
  address : String
  createdAt : Time
  deriving DecidableEq, Repr

/-- `@@unique([organizationId, network, token])`. -/
def MerchantWalletAddress.key (w : MerchantWalletAddress) : String × String × String :=
  (w.organizationId, w.network, w.token)

/-- `model BlockchainScanCursor` (schema.prisma, lines 376–386). -/
structure BlockchainScanCursor where
  network : String
  lastScannedBlock : ℤ
  deriving DecidableEq, Repr

/-- The JSON column `data` of a webhook event, with the keys that both
    `createWebhookEvent` functions write. -/
structure WebhookEventData where
  invoice_id : String
  external_id : Option String
  amount : String
  currency : String
  network : String
  status : String
  tx_hash : Option String
  deriving DecidableEq, Repr

/-- `model WebhookEvent` (schema.prisma, lines 414–431). -/
structure WebhookEvent where
  id : String
  organizationId : String
  invoiceId : String
  type : String
  data : WebhookEventData
  createdAt : Time
  deriving DecidableEq, Repr

/-- `model AuditLog` (schema.prisma, lines 214–233); `metadata` is an object
    with string values in every modelled caller. -/
structure AuditLog where
  organizationId : Option String
  actorId : Option String
  actorType : String
  action : String
  resourceType : String
  resourceId : Option String
  ip : Option String
  userAgent : Option String
  metadata : Option (List (String × String))
  createdAt : Time
  deriving DecidableEq, Repr

/-- The payment tables. -/
structure Db where
  invoices : Table Invoice.id
  payments : Table Payment.id
  merchantWalletAddresses : Table MerchantWalletAddress.key
  blockchainScanCursors : Table BlockchainScanCursor.network
  webhookEvents : Table WebhookEvent.id
  auditLogs : List AuditLog

/-- The empty database. -/
def Db.empty : Db := ⟨.empty, .empty, .empty, .empty, .empty, []⟩

end CryptoPay
