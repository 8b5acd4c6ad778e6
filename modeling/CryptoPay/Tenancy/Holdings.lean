import CryptoPay.Data.Views
import CryptoPay.Tenancy.Services

/-!
# What an organization holds

`Database.heldBy` are the rows of one organization, in every table. A delivery
has no column for it: it belongs to the organization of its endpoint. A call is
`Of` an organization if it reads and writes rows of that organization only; one
that names a row by its id is so because of what was read before.

Results:
* `exec_frame`, `exec_payments_frame`: a call of one organization leaves what
  every other one holds as it is.
* `exec_agree`, `exec_payments_agree`: two databases in which the organization
  holds the same rows give the same reply to it, and the organization holds the
  same rows afterwards.
-/

namespace CryptoPay.Tenancy

open Data Webhooks

open Organizations (MembershipRow)

/-- The rows of one organization. -/
@[ext]
structure Holdings where
  invoices : List Invoice
  payments : List Payment
  merchantWalletAddresses : List MerchantWalletAddress
  webhookEvents : List WebhookEvent
  auditLogs : List AuditLog
  webhookEndpoints : List WebhookEndpoint
  webhookDeliveries : List WebhookDelivery
  apiKeys : List ApiKey
  memberships : List MembershipRow

/-- The endpoint of the delivery belongs to the organization. -/
def ownsDelivery (endpoints : List WebhookEndpoint) (organizationId : String)
    (d : WebhookDelivery) : Bool :=
  endpoints.any fun p => p.id = d.endpointId && p.organizationId = organizationId

/-- What the organization holds. -/
def Database.heldBy (db : Database) (organizationId : String) : Holdings where
  invoices := db.payments.invoices.filter fun i => i.organizationId = organizationId
  payments := db.payments.payments.filter fun p => p.organizationId = organizationId
  merchantWalletAddresses :=
    db.payments.merchantWalletAddresses.filter fun w => w.organizationId = organizationId
  webhookEvents := db.payments.webhookEvents.filter fun e => e.organizationId = organizationId
  auditLogs := db.payments.auditLogs.filter fun a => a.organizationId = some organizationId
  webhookEndpoints := db.webhookEndpoints.filter fun p => p.organizationId = organizationId
  webhookDeliveries :=
    db.webhookDeliveries.filter (ownsDelivery db.webhookEndpoints.rows organizationId)
  apiKeys := db.apiKeys.filter fun k => k.organizationId = organizationId
  memberships := db.memberships.filter fun m => m.organizationId = organizationId

/-- Every delivery is of an event and to an endpoint of one organization. -/
def Database.Linked (db : Database) : Prop :=
  ∀ d ∈ db.webhookDeliveries, ∃ e ∈ db.payments.webhookEvents, ∃ p ∈ db.webhookEndpoints,
    e.id = d.eventId ∧ p.id = d.endpointId ∧ e.organizationId = p.organizationId

/-! ## Calls of one organization -/

/-- The write is of a row of the organization. -/
def WriteOf (A : String) : Write → Prop
  | .invoiceCreate d => d.organizationId = A
  | .merchantWalletAddressCreate row => row.organizationId = A
  | .auditLogCreate row => row.organizationId = some A
  | _ => False

/-- The call reads and writes rows of the organization only. -/
def PaymentCallOf (A : String) : PrismaCall → Prop
  | .invoiceFindFirst _ organizationId => organizationId = A
  | .invoiceFindByExternalId organizationId _ => organizationId = A
  | .merchantWalletAddressFindUnique organizationId _ _ => organizationId = A
  | .merchantWalletAddressUpsert row => row.organizationId = A
  | .invoiceCreate d => WriteOf A (.invoiceCreate d)
  | .transaction ws => ∃ w, ws = [w] ∧ WriteOf A w
  | _ => False

/-- An endpoint with this id is stored, and is the organization's. -/
def Database.HasEndpoint (db : Database) (A id : String) : Prop :=
  ∃ p ∈ db.webhookEndpoints, p.id = id ∧ p.organizationId = A

/-- An API key with this id is stored, and is the organization's. -/
def Database.HasApiKey (db : Database) (A id : String) : Prop :=
  ∃ k ∈ db.apiKeys, k.id = id ∧ k.organizationId = A

/-- The call reads and writes rows of the organization only, whose endpoints and API keys have
    these ids. -/
def ObjectCallOf (A : String) (endpoint apiKey : String → Prop) : ObjectCall → Prop
  | .invoiceFindPage organizationId _ _ => organizationId = A
  | .invoiceCount organizationId => organizationId = A
  | .merchantWalletAddressFindMany organizationId => organizationId = A
  | .webhookEndpointCreate d => d.organizationId = A
  | .webhookEndpointFindMany organizationId => organizationId = A
  | .webhookEndpointFindFirst _ organizationId => organizationId = A
  | .webhookEndpointRevoke id _ => endpoint id
  | .webhookDeliveryFindMany endpointId _ => endpoint endpointId
  | .apiKeyCreate d => d.organizationId = A
  | .apiKeyFindMany organizationId => organizationId = A
  | .apiKeyFindFirst _ organizationId => organizationId = A
  | .apiKeyUpdate id _ => apiKey id
  | .apiKeyFindUnique _ => False
  | .membershipFindMany _ => False

theorem ObjectCallOf.imp {A : String} {endpoint endpoint' apiKey apiKey' : String → Prop}
    (he : ∀ id, endpoint id → endpoint' id) (hk : ∀ id, apiKey id → apiKey' id) {call : ObjectCall}
    (h : ObjectCallOf A endpoint apiKey call) : ObjectCallOf A endpoint' apiKey' call := by
  cases call with
  | webhookEndpointRevoke id revokedAt => exact he id h
  | webhookDeliveryFindMany endpointId take => exact he endpointId h
  | apiKeyUpdate id d => exact hk id h
  | _ => exact h

/-- No row of another organization has the id of the new row. -/
def WriteFresh (A : String) (db : Db) : Write → Prop
  | .invoiceCreate d => ∀ i ∈ db.invoices, i.id = d.id → i.organizationId = A
  | _ => True

/-- The generated id of a new row is no other organization's. -/
def PaymentCallFresh (A : String) (db : Db) : PrismaCall → Prop
  | .invoiceCreate d => WriteFresh A db (.invoiceCreate d)
  | .transaction ws => ∀ w ∈ ws, WriteFresh A db w
  | _ => True

/-- The generated id of a new row, and the hash of a new API key, are no other organization's. -/
def ObjectCallFresh (A : String) (db : Database) : ObjectCall → Prop
  | .webhookEndpointCreate d => ∀ p ∈ db.webhookEndpoints, p.id = d.id → p.organizationId = A
  | .apiKeyCreate d =>
    ∀ k ∈ db.apiKeys, k.keyHash = d.keyHash ∨ k.id = d.id → k.organizationId = A
  | _ => True

/-! ## Frames -/

section Frame

variable {A B : String} {now : Time} {db db' : Database}

theorem ownsDelivery_modify (t : Table WebhookEndpoint.id) (id : String) (revokedAt : Time)
    (d : WebhookDelivery) :
    ownsDelivery (t.modify id (revokeEndpoint revokedAt) fun _ => rfl).rows B d =
      ownsDelivery t.rows B d := by
  show (t.rows.map _).any _ = t.rows.any _
  rw [List.any_map]
  congr 1
  funext p
  simp only [Function.comp_apply]
  split_ifs <;> rfl

/-- A new endpoint has no deliveries yet. -/
theorem ownsDelivery_insert? (hl : db.Linked) {t : Table WebhookEndpoint.id} {p : WebhookEndpoint}
    (h : db.webhookEndpoints.insert? p = some t) {d : WebhookDelivery}
    (hd : d ∈ db.webhookDeliveries) :
    ownsDelivery t.rows B d = ownsDelivery db.webhookEndpoints.rows B d := by
  obtain ⟨-, -, q, hq, -, hqid, -⟩ := hl d hd
  have hne : p.id ≠ d.endpointId := by
    rw [← hqid]
    exact ((Table.insert?_eq_some h).1 q hq).symm
  unfold ownsDelivery
  rw [Table.rows_insert? h, List.any_cons]
  simp [hne]

theorem deliveries_insert? (hl : db.Linked) {t : Table WebhookEndpoint.id} {p : WebhookEndpoint}
    (h : db.webhookEndpoints.insert? p = some t) :
    db.webhookDeliveries.filter (ownsDelivery t.rows B) =
      db.webhookDeliveries.filter (ownsDelivery db.webhookEndpoints.rows B) :=
  List.filter_congr fun _ hd => ownsDelivery_insert? hl h hd

/-- A write of one organization leaves the rows of the others as they are. -/
theorem apply_frame {w : Write} (hw : WriteOf A w) (hB : B ≠ A) {p : Db}
    (h : w.apply now db.payments = .ok p) :
    Database.heldBy { db with payments := p } B = db.heldBy B := by
  cases w with
  | invoiceCreate d =>
    have hne : (d.row now).organizationId ≠ B := fun heq => hB (heq.symm.trans hw)
    obtain ⟨-, t, ht, rfl⟩ := invoiceCreate_ok h
    simp [Database.heldBy, Table.filter_insert? ht, hne]
  | merchantWalletAddressCreate row =>
    have hne : row.organizationId ≠ B := fun heq => hB (heq ▸ hw)
    obtain ⟨t, ht, rfl⟩ := merchantWalletAddressCreate_ok h
    simp [Database.heldBy, Table.filter_insert? ht, hne]
  | auditLogCreate row =>
    have hne : row.organizationId ≠ some B := fun heq => hB (Option.some.inj (heq.symm.trans hw))
    cases h
    simp [Database.heldBy, hne]
  | _ => exact hw.elim

/-- A payment call of one organization leaves the rows of the others as they are. -/
theorem exec_payments_frame {call : PrismaCall} (hc : PaymentCallOf A call) (hB : B ≠ A) :
    Database.heldBy { db with payments := (call.exec now db.payments).2 } B = db.heldBy B := by
  cases call with
  | merchantWalletAddressUpsert row =>
    have hne : row.organizationId ≠ B := fun heq => hB (heq ▸ hc)
    have hkey : ∀ w ∈ db.payments.merchantWalletAddresses, w.key = row.key →
        decide (w.organizationId = B) = false := by
      intro w _ hk
      have horg : w.organizationId = row.organizationId := congrArg Prod.fst hk
      simp [horg, hne]
    simp only [PrismaCall.exec, Db.upsertWallet]
    split
    · have hpart := Table.filter_modify_of_not (f := fun w => { w with address := row.address })
        (fun _ => rfl) (fun _ => rfl) hkey
      exact Holdings.ext rfl rfl hpart rfl rfl rfl rfl rfl rfl
    · split
      · rename_i t ht
        simp [Database.heldBy, Table.filter_insert? ht, hne]
      · rfl
  | invoiceCreate d =>
    simp only [PrismaCall.exec]
    split
    · rename_i p h
      exact apply_frame (w := .invoiceCreate d) hc hB h
    · rfl
  | transaction ws =>
    obtain ⟨w, rfl, hw⟩ := hc
    simp only [PrismaCall.exec]
    split
    · rename_i p h
      obtain ⟨p₁, h₁, h₂⟩ := transaction_cons h
      obtain rfl := transaction_nil h₂
      exact apply_frame hw hB h₁
    · rfl
  | _ => first | rfl | exact hc.elim

/-- A call of one organization leaves the rows of the others as they are. -/
theorem exec_frame {call : ObjectCall} (hl : db.Linked)
    (hc : ObjectCallOf A (db.HasEndpoint A) (db.HasApiKey A) call) (hB : B ≠ A) :
    (call.exec now db).2.heldBy B = db.heldBy B := by
  cases call with
  | webhookEndpointCreate d =>
    have hne : d.organizationId ≠ B := fun heq => hB (heq ▸ hc)
    simp only [ObjectCall.exec]
    split
    · rename_i t ht
      have hrow : (d.row now).organizationId = d.organizationId := rfl
      simp [Database.heldBy, Table.filter_insert? ht, deliveries_insert? hl ht, hrow, hne]
    · rfl
  | webhookEndpointRevoke id revokedAt =>
    obtain ⟨p, hp, hid, horg⟩ := hc
    have hother : ∀ x ∈ db.webhookEndpoints, x.id = id → decide (x.organizationId = B) = false := by
      intro x hx hxid
      obtain rfl := Table.eq_of_key hx hp (hxid.trans hid.symm)
      simp [horg, hB.symm]
    simp only [ObjectCall.exec]
    split
    · have hpart := Table.filter_modify_of_not (f := revokeEndpoint revokedAt) (fun _ => rfl)
        (fun _ => rfl) hother
      have hdeliveries : (db.webhookDeliveries.filter (ownsDelivery (db.webhookEndpoints.modify id
          (revokeEndpoint revokedAt) fun _ => rfl).rows B)) = _ :=
        congrArg db.webhookDeliveries.filter (funext (ownsDelivery_modify _ _ _))
      exact Holdings.ext rfl rfl rfl rfl rfl hpart hdeliveries rfl rfl
    · rfl
  | apiKeyCreate d =>
    have hne : d.organizationId ≠ B := fun heq => hB (heq ▸ hc)
    simp only [ObjectCall.exec]
    split
    · rename_i t ht
      have hrow : (d.row now).organizationId = d.organizationId := rfl
      simp [Database.heldBy, Table.filter, ApiKeyTable.insert?_eq_some ht, hrow, hne]
    · rfl
  | apiKeyUpdate id d =>
    obtain ⟨k, hk, hid, horg⟩ := hc
    have hother : ∀ x ∈ db.apiKeys.toTable, x.id = id → decide (x.organizationId = B) = false := by
      intro x hx hxid
      obtain rfl := db.apiKeys.eq_of_key hx hk (hxid.trans hid.symm)
      simp [horg, hB.symm]
    simp only [ObjectCall.exec]
    split
    · have hpart := Table.filter_modify_of_not (f := ApiKey.update d) (fun _ => rfl) (fun _ => rfl)
        hother
      exact Holdings.ext rfl rfl rfl rfl rfl rfl rfl hpart rfl
    · rfl
  | _ => rfl

end Frame

/-! ## Agreement -/

section Agree

variable {A : String} {now : Time} {db db' : Database}

theorem transaction_one (now : Time) (db : Db) (w : Write) :
    db.transaction now [w] = w.apply now db := by
  unfold Db.transaction
  rw [List.foldlM_cons]
  cases w.apply now db <;> rfl

/-- A write of one organization does the same to its rows in both databases. -/
theorem apply_agree {w : Write} (hw : WriteOf A w) (h : db.heldBy A = db'.heldBy A)
    (hf : WriteFresh A db.payments w) (hf' : WriteFresh A db'.payments w) :
    (∃ p p', w.apply now db.payments = .ok p ∧ w.apply now db'.payments = .ok p' ∧
      Database.heldBy { db with payments := p } A = Database.heldBy { db' with payments := p' } A) ∨
      ∃ e, w.apply now db.payments = .error e ∧ w.apply now db'.payments = .error e := by
  cases w with
  | invoiceCreate d =>
    obtain rfl : d.organizationId = A := hw
    have hpart := congrArg Holdings.invoices h
    simp only [Database.heldBy] at hpart
    have htaken : db.payments.externalIdTaken d = db'.payments.externalIdTaken d := by
      have himp : ∀ i : Invoice, decide (i.organizationId = d.organizationId ∧
          i.externalId = d.externalId) = true → decide (i.organizationId = d.organizationId) = true :=
        fun i hi => decide_eq_true (of_decide_eq_true hi).1
      unfold Db.externalIdTaken
      rw [any_filter_of_imp himp db.payments.invoices.rows,
        any_filter_of_imp himp db'.payments.invoices.rows]
      exact congrArg (fun l => d.externalId.isSome && List.any l _) hpart
    simp only [Write.apply, insertRow, htaken]
    split_ifs
    · exact .inr ⟨_, rfl, rfl⟩
    · exact .inr ⟨_, rfl, rfl⟩
    · rcases Table.insert?_cases (r := d.row now) hpart
        (fun x hx hk => decide_eq_true (hf x hx hk)) (fun x hx hk => decide_eq_true (hf' x hx hk))
        with ⟨t, u, ht, hu⟩ | ⟨ht, hu⟩
      · rw [ht, hu]
        refine .inl ⟨_, _, rfl, rfl, ?_⟩
        have hnew : t.filter (fun i => i.organizationId = d.organizationId) =
            u.filter fun i => i.organizationId = d.organizationId := by
          rw [Table.filter_insert? ht, Table.filter_insert? hu, hpart]
        exact congrArg₂ (fun (s : Holdings) rows => { s with invoices := rows }) h hnew
      · rw [ht, hu]
        exact .inr ⟨_, rfl, rfl⟩
  | merchantWalletAddressCreate row =>
    obtain rfl : row.organizationId = A := hw
    have hpart := congrArg Holdings.merchantWalletAddresses h
    simp only [Database.heldBy] at hpart
    have hown : ∀ x : MerchantWalletAddress, x.key = row.key →
        decide (x.organizationId = row.organizationId) = true :=
      fun x hk => decide_eq_true (congrArg Prod.fst hk)
    simp only [Write.apply, insertRow]
    rcases Table.insert?_cases hpart (fun x _ => hown x) (fun x _ => hown x) with
      ⟨t, u, ht, hu⟩ | ⟨ht, hu⟩
    · rw [ht, hu]
      refine .inl ⟨_, _, rfl, rfl, ?_⟩
      have hnew : t.filter (fun w => w.organizationId = row.organizationId) =
          u.filter fun w => w.organizationId = row.organizationId := by
        rw [Table.filter_insert? ht, Table.filter_insert? hu, hpart]
      exact congrArg₂ (fun (s : Holdings) rows => { s with merchantWalletAddresses := rows }) h hnew
    · rw [ht, hu]
      exact .inr ⟨_, rfl, rfl⟩
  | auditLogCreate row =>
    have hlogs := congrArg Holdings.auditLogs h
    simp only [Database.heldBy] at hlogs
    have hnew : ({ row with createdAt := now } :: db.payments.auditLogs).filter
        (fun a => a.organizationId = some A) = ({ row with createdAt := now } ::
          db'.payments.auditLogs).filter fun a => a.organizationId = some A := by
      rw [List.filter_cons, List.filter_cons, hlogs]
    exact .inl ⟨_, _, rfl, rfl,
      congrArg₂ (fun (s : Holdings) rows => { s with auditLogs := rows }) h hnew⟩
  | _ => exact hw.elim

/-- A payment call of one organization gets the same reply from both databases, and does the same
    to its rows. -/
theorem exec_payments_agree {call : PrismaCall} (hc : PaymentCallOf A call)
    (h : db.heldBy A = db'.heldBy A) (hf : PaymentCallFresh A db.payments call)
    (hf' : PaymentCallFresh A db'.payments call) :
    (call.exec now db.payments).1 = (call.exec now db'.payments).1 ∧
      Database.heldBy { db with payments := (call.exec now db.payments).2 } A =
        Database.heldBy { db' with payments := (call.exec now db'.payments).2 } A := by
  have hinvoices := congrArg Holdings.invoices h
  have hwallets := congrArg Holdings.merchantWalletAddresses h
  simp only [Database.heldBy] at hinvoices hwallets
  cases call with
  | invoiceFindFirst id organizationId =>
    obtain rfl : organizationId = A := hc
    have himp : ∀ i : Invoice, decide (i.id = id ∧ i.organizationId = organizationId) = true →
        decide (i.organizationId = organizationId) = true :=
      fun i hi => decide_eq_true (of_decide_eq_true hi).2
    refine ⟨?_, h⟩
    simp only [PrismaCall.exec]
    rw [find?_filter_of_imp himp db.payments.invoices.rows,
      find?_filter_of_imp himp db'.payments.invoices.rows]
    exact congrArg (fun l => Except.ok (List.find? _ l)) hinvoices
  | invoiceFindByExternalId organizationId externalId =>
    obtain rfl : organizationId = A := hc
    have himp : ∀ i : Invoice, decide (i.organizationId = organizationId ∧
        i.externalId = some externalId) = true → decide (i.organizationId = organizationId) = true :=
      fun i hi => decide_eq_true (of_decide_eq_true hi).1
    refine ⟨?_, h⟩
    simp only [PrismaCall.exec]
    rw [find?_filter_of_imp himp db.payments.invoices.rows,
      find?_filter_of_imp himp db'.payments.invoices.rows]
    exact congrArg (fun l => Except.ok (List.find? _ l)) hinvoices
  | merchantWalletAddressFindUnique organizationId network token =>
    obtain rfl : organizationId = A := hc
    refine ⟨congrArg Except.ok (Table.find?_agree hwallets fun w hk => ?_), h⟩
    exact decide_eq_true (congrArg Prod.fst hk)
  | merchantWalletAddressUpsert row =>
    obtain rfl : row.organizationId = A := hc
    have hown : ∀ x : MerchantWalletAddress, x.key = row.key →
        decide (x.organizationId = row.organizationId) = true :=
      fun x hk => decide_eq_true (congrArg Prod.fst hk)
    have hfind := Table.find?_agree hwallets hown
    let f : MerchantWalletAddress → MerchantWalletAddress := fun w =>
      { w with address := row.address }
    have hset : ∀ t : Table MerchantWalletAddress.key, (t.modify row.key f fun _ => rfl).filter
        (fun w => w.organizationId = row.organizationId) = (t.filter fun w =>
          w.organizationId = row.organizationId).map fun w => if w.key = row.key then f w else w :=
      fun t => Table.filter_modify (f := f) (fun _ => rfl) fun _ => rfl
    simp only [PrismaCall.exec, Db.upsertWallet]
    rw [← hfind]
    cases db.payments.merchantWalletAddresses.find? row.key with
    | some old =>
      refine ⟨rfl, ?_⟩
      exact congrArg₂ (fun (s : Holdings) rows => { s with merchantWalletAddresses := rows }) h
        ((hset _).trans ((congrArg _ hwallets).trans (hset _).symm))
    | none =>
      dsimp only
      rcases Table.insert?_cases hwallets (fun x _ => hown x) (fun x _ => hown x) with
        ⟨t, u, ht, hu⟩ | ⟨ht, hu⟩
      · rw [ht, hu]
        refine ⟨rfl, ?_⟩
        have hnew : t.filter (fun w => w.organizationId = row.organizationId) =
            u.filter fun w => w.organizationId = row.organizationId := by
          rw [Table.filter_insert? ht, Table.filter_insert? hu, hwallets]
        exact congrArg₂ (fun (s : Holdings) rows => { s with merchantWalletAddresses := rows }) h hnew
      · rw [ht, hu]
        exact ⟨rfl, h⟩
  | invoiceCreate d =>
    simp only [PrismaCall.exec]
    rcases apply_agree (w := .invoiceCreate d) hc h hf hf' with
      ⟨p, p', hp, hp', hheld⟩ | ⟨e, he, he'⟩
    · rw [hp, hp']
      exact ⟨rfl, hheld⟩
    · rw [he, he']
      exact ⟨rfl, h⟩
  | transaction ws =>
    obtain ⟨w, rfl, hw⟩ := hc
    have hfw := hf w List.mem_cons_self
    have hfw' := hf' w List.mem_cons_self
    simp only [PrismaCall.exec, transaction_one]
    rcases apply_agree hw h hfw hfw' with ⟨p, p', hp, hp', hheld⟩ | ⟨e, he, he'⟩
    · rw [hp, hp']
      exact ⟨rfl, hheld⟩
    · rw [he, he']
      exact ⟨rfl, h⟩
  | _ => exact hc.elim

/-- Two tables of API keys with the same part take a row into it both or neither. -/
theorem apiKeys_insert?_cases {t u : ApiKeyTable} {k : ApiKey}
    (h : t.filter (fun k => k.organizationId = A) = u.filter fun k => k.organizationId = A)
    (ht : ∀ x ∈ t, x.keyHash = k.keyHash ∨ x.id = k.id → x.organizationId = A)
    (hu : ∀ x ∈ u, x.keyHash = k.keyHash ∨ x.id = k.id → x.organizationId = A) :
    (∃ t' u', t.insert? k = some t' ∧ u.insert? k = some u') ∨
      (t.insert? k = none ∧ u.insert? k = none) := by
  have hto : ∀ {v w : ApiKeyTable}, v.filter (fun k => k.organizationId = A) =
      w.filter (fun k => k.organizationId = A) →
      (∀ x ∈ v, x.keyHash = k.keyHash ∨ x.id = k.id → x.organizationId = A) →
      v.insert? k = none → w.insert? k = none := by
    intro v w hvw hv hnone
    obtain ⟨x, hx, hcol⟩ := ApiKeyTable.insert?_eq_none hnone
    have hxw : x ∈ w.filter fun k => k.organizationId = A :=
      hvw ▸ Table.mem_filter.mpr ⟨hx, decide_eq_true (hv x hx hcol)⟩
    exact ApiKeyTable.insert?_taken (Table.mem_filter.mp hxw).1 hcol
  cases htk : t.insert? k with
  | none => exact .inr ⟨rfl, hto h ht htk⟩
  | some t' =>
    cases huk : u.insert? k with
    | none =>
      rw [hto h.symm hu huk] at htk
      cases htk
    | some u' => exact .inl ⟨t', u', rfl, rfl⟩

/-- The deliveries of an endpoint are among those of its organization. -/
theorem deliveries_of {endpointId : String} (hp : db.HasEndpoint A endpointId) :
    db.webhookDeliveries.filter (fun d => d.endpointId = endpointId) =
      (db.heldBy A).webhookDeliveries.filter fun d => d.endpointId = endpointId := by
  obtain ⟨p, hmem, hid, horg⟩ := hp
  refine filter_filter_of_imp (fun d hd => List.any_eq_true.mpr ⟨p, hmem, ?_⟩) _
  have hd : d.endpointId = endpointId := of_decide_eq_true hd
  simp [hd, hid, horg]

/-- The event of a delivery is one of the organization of its endpoint. -/
theorem withEvent_agree (hl : db.Linked) (h : db.heldBy A = db'.heldBy A) {d : WebhookDelivery}
    (hd : d ∈ db.webhookDeliveries) (hp : db.HasEndpoint A d.endpointId) :
    db.withEvent d = db'.withEvent d := by
  obtain ⟨e, he, p, hp', heid, hpid, horg⟩ := hl d hd
  obtain ⟨q, hq, hqid, hqorg⟩ := hp
  obtain rfl := Table.eq_of_key hp' hq (hpid.trans hqid.symm)
  have hevents := congrArg Holdings.webhookEvents h
  have hmem : e ∈ db.payments.webhookEvents.filter fun e => e.organizationId = A :=
    Table.mem_filter.mpr ⟨he, decide_eq_true (horg.trans hqorg)⟩
  have hmem' : e ∈ db'.payments.webhookEvents.filter fun e => e.organizationId = A := by
    simp only [Database.heldBy] at hevents
    exact hevents ▸ hmem
  unfold Database.withEvent
  rw [Table.find?_eq_some_iff.mpr ⟨he, heid⟩,
    Table.find?_eq_some_iff.mpr ⟨(Table.mem_filter.mp hmem').1, heid⟩]

/-- The call gets the same reply from both databases, and does the same to the rows of `A`. -/
def SameFor (A : String) (now : Time) (db db' : Database) (call : ObjectCall) : Prop :=
  (call.exec now db).1 = (call.exec now db').1 ∧
    (call.exec now db).2.heldBy A = (call.exec now db').2.heldBy A

/-- An endpoint that is looked up together with its organization. -/
theorem endpointFindFirst_agree {id : String} (h : db.heldBy A = db'.heldBy A) :
    SameFor A now db db' (.webhookEndpointFindFirst id A) := by
  have himp : ∀ p : WebhookEndpoint, decide (p.id = id ∧ p.organizationId = A) = true →
      decide (p.organizationId = A) = true :=
    fun p hp => decide_eq_true (of_decide_eq_true hp).2
  have hendpoints := congrArg Holdings.webhookEndpoints h
  refine ⟨?_, h⟩
  simp only [ObjectCall.exec, Database.heldBy] at hendpoints ⊢
  rw [find?_filter_of_imp himp db.webhookEndpoints.rows,
    find?_filter_of_imp himp db'.webhookEndpoints.rows]
  exact congrArg (fun l => Except.ok (List.find? _ l)) hendpoints

/-- An API key that is looked up together with its organization. -/
theorem apiKeyFindFirst_agree {id : String} (h : db.heldBy A = db'.heldBy A) :
    SameFor A now db db' (.apiKeyFindFirst id A) := by
  have himp : ∀ k : ApiKey, decide (k.id = id ∧ k.organizationId = A) = true →
      decide (k.organizationId = A) = true :=
    fun k hk => decide_eq_true (of_decide_eq_true hk).2
  have hkeys := congrArg Holdings.apiKeys h
  refine ⟨?_, h⟩
  simp only [ObjectCall.exec, Database.heldBy] at hkeys ⊢
  rw [find?_filter_of_imp himp db.apiKeys.rows, find?_filter_of_imp himp db'.apiKeys.rows]
  exact congrArg (fun l => Except.ok (List.find? _ l)) hkeys

/-- The deliveries of an endpoint, each with its event. -/
theorem deliveryFindMany_agree {endpointId : String} {take : ℕ} (hc : db.HasEndpoint A endpointId)
    (hc' : db'.HasEndpoint A endpointId) (hl' : db'.Linked) (h : db.heldBy A = db'.heldBy A) :
    SameFor A now db db' (.webhookDeliveryFindMany endpointId take) := by
  refine ⟨?_, h⟩
  have hsame := (deliveries_of hc).trans ((congrArg (List.filter _)
    (congrArg Holdings.webhookDeliveries h)).trans (deliveries_of hc').symm)
  simp only [ObjectCall.exec, hsame]
  refine congrArg Except.ok (List.filterMap_congr fun d hd => ?_)
  have hd := (List.mem_insertionSort _).mp (List.mem_of_mem_take hd)
  obtain ⟨hd, hid⟩ := Table.mem_filter.mp hd
  exact (withEvent_agree hl' h.symm hd (of_decide_eq_true hid ▸ hc')).symm

/-- A new endpoint of the organization. -/
theorem endpointCreate_agree {d : EndpointCreateInput} (hl : db.Linked) (hl' : db'.Linked)
    (h : db.heldBy d.organizationId = db'.heldBy d.organizationId)
    (hf : ∀ x ∈ db.webhookEndpoints, x.id = d.id → x.organizationId = d.organizationId)
    (hf' : ∀ x ∈ db'.webhookEndpoints, x.id = d.id → x.organizationId = d.organizationId) :
    SameFor d.organizationId now db db' (.webhookEndpointCreate d) := by
  have hendpoints := congrArg Holdings.webhookEndpoints h
  have hdeliveries := congrArg Holdings.webhookDeliveries h
  simp only [Database.heldBy] at hendpoints hdeliveries
  simp only [SameFor, ObjectCall.exec]
  rcases Table.insert?_cases (r := d.row now) hendpoints
    (fun x hx hk => decide_eq_true (hf x hx hk)) (fun x hx hk => decide_eq_true (hf' x hx hk))
    with ⟨t, u, ht, hu⟩ | ⟨ht, hu⟩
  · rw [ht, hu]
    refine ⟨rfl, ?_⟩
    have hnew : t.filter (fun p => p.organizationId = d.organizationId) =
        u.filter fun p => p.organizationId = d.organizationId := by
      rw [Table.filter_insert? ht, Table.filter_insert? hu, hendpoints]
    have hsame := (deliveries_insert? hl ht).trans
      (hdeliveries.trans (deliveries_insert? hl' hu).symm)
    exact congrArg₂ (fun (s : Holdings) rows => { s with webhookDeliveries := rows })
      (congrArg₂ (fun (s : Holdings) rows => { s with webhookEndpoints := rows }) h hnew) hsame
  · rw [ht, hu]
    exact ⟨rfl, h⟩

/-- An endpoint of the organization is revoked. -/
theorem endpointRevoke_agree {id : String} {revokedAt : Time} (hc : db.HasEndpoint A id)
    (hc' : db'.HasEndpoint A id) (h : db.heldBy A = db'.heldBy A) :
    SameFor A now db db' (.webhookEndpointRevoke id revokedAt) := by
  obtain ⟨p, hp, hid, -⟩ := hc
  obtain ⟨p', hp', hid', -⟩ := hc'
  have hendpoints := congrArg Holdings.webhookEndpoints h
  have hdeliveries := congrArg Holdings.webhookDeliveries h
  simp only [Database.heldBy] at hendpoints hdeliveries
  simp only [SameFor, ObjectCall.exec, Table.find?_eq_some_iff.mpr ⟨hp, hid⟩,
    Table.find?_eq_some_iff.mpr ⟨hp', hid'⟩, true_and]
  have hnew : ∀ t : Table WebhookEndpoint.id, (t.modify id (revokeEndpoint revokedAt)
      fun _ => rfl).filter (fun p => p.organizationId = A) =
        (t.filter fun p => p.organizationId = A).map fun p =>
          if p.id = id then revokeEndpoint revokedAt p else p :=
    fun t => Table.filter_modify (f := revokeEndpoint revokedAt) (fun _ => rfl) fun _ => rfl
  have howns := fun t : Table WebhookEndpoint.id => funext
    (ownsDelivery_modify (B := A) t id revokedAt)
  have hsame : db.webhookDeliveries.filter (ownsDelivery (db.webhookEndpoints.modify id
      (revokeEndpoint revokedAt) fun _ => rfl).rows A) = db'.webhookDeliveries.filter
        (ownsDelivery (db'.webhookEndpoints.modify id (revokeEndpoint revokedAt)
          fun _ => rfl).rows A) := by
    rw [howns, howns, hdeliveries]
  exact congrArg₂ (fun (s : Holdings) rows => { s with webhookDeliveries := rows })
    (congrArg₂ (fun (s : Holdings) rows => { s with webhookEndpoints := rows }) h
      ((hnew _).trans ((congrArg _ hendpoints).trans (hnew _).symm))) hsame

/-- A new API key of the organization. -/
theorem apiKeyCreate_agree {d : ApiKeyCreateInput}
    (h : db.heldBy d.organizationId = db'.heldBy d.organizationId)
    (hf : ∀ x ∈ db.apiKeys, x.keyHash = d.keyHash ∨ x.id = d.id →
      x.organizationId = d.organizationId)
    (hf' : ∀ x ∈ db'.apiKeys, x.keyHash = d.keyHash ∨ x.id = d.id →
      x.organizationId = d.organizationId) :
    SameFor d.organizationId now db db' (.apiKeyCreate d) := by
  have hkeys := congrArg Holdings.apiKeys h
  simp only [Database.heldBy] at hkeys
  simp only [SameFor, ObjectCall.exec]
  rcases apiKeys_insert?_cases (k := d.row now) hkeys hf hf' with ⟨t, u, ht, hu⟩ | ⟨ht, hu⟩
  · rw [ht, hu]
    refine ⟨rfl, ?_⟩
    have hnew : t.filter (fun k => k.organizationId = d.organizationId) =
        u.filter fun k => k.organizationId = d.organizationId := by
      simp only [Table.filter, ApiKeyTable.insert?_eq_some ht, ApiKeyTable.insert?_eq_some hu,
        List.filter_cons] at hkeys ⊢
      rw [hkeys]
    exact congrArg₂ (fun (s : Holdings) rows => { s with apiKeys := rows }) h hnew
  · rw [ht, hu]
    exact ⟨rfl, h⟩

/-- An API key of the organization is updated. -/
theorem apiKeyUpdate_agree {id : String} {d : ApiKeyUpdateInput} (hc : db.HasApiKey A id)
    (hc' : db'.HasApiKey A id) (h : db.heldBy A = db'.heldBy A) :
    SameFor A now db db' (.apiKeyUpdate id d) := by
  obtain ⟨k, hk, hid, -⟩ := hc
  obtain ⟨k', hk', hid', -⟩ := hc'
  have hkeys := congrArg Holdings.apiKeys h
  simp only [Database.heldBy] at hkeys
  simp only [SameFor, ObjectCall.exec, Table.find?_eq_some_iff.mpr ⟨hk, hid⟩,
    Table.find?_eq_some_iff.mpr ⟨hk', hid'⟩, true_and]
  have hnew : ∀ t : ApiKeyTable, (t.modify id (ApiKey.update d) (fun _ => rfl)
      fun _ => rfl).filter (fun k => k.organizationId = A) =
        (t.filter fun k => k.organizationId = A).map fun k =>
          if k.id = id then k.update d else k :=
    fun t => Table.filter_modify (f := ApiKey.update d) (fun _ => rfl) fun _ => rfl
  exact congrArg₂ (fun (s : Holdings) rows => { s with apiKeys := rows }) h
    ((hnew _).trans ((congrArg _ hkeys).trans (hnew _).symm))

/-- A call of one organization gets the same reply from both databases, and does the same to its
    rows. -/
theorem exec_agree {call : ObjectCall}
    (hc : ObjectCallOf A (db.HasEndpoint A) (db.HasApiKey A) call)
    (hc' : ObjectCallOf A (db'.HasEndpoint A) (db'.HasApiKey A) call) (hl : db.Linked)
    (hl' : db'.Linked) (h : db.heldBy A = db'.heldBy A)
    (hf : ObjectCallFresh A db call) (hf' : ObjectCallFresh A db' call) :
    SameFor A now db db' call := by
  have hinvoices := congrArg Holdings.invoices h
  have hwallets := congrArg Holdings.merchantWalletAddresses h
  have hendpoints := congrArg Holdings.webhookEndpoints h
  have hkeys := congrArg Holdings.apiKeys h
  simp only [Database.heldBy] at hinvoices hwallets hendpoints hkeys
  cases call with
  | invoiceFindPage organizationId skip take =>
    obtain rfl : organizationId = A := hc
    exact ⟨by simp only [ObjectCall.exec, hinvoices], h⟩
  | invoiceCount organizationId =>
    obtain rfl : organizationId = A := hc
    exact ⟨by simp only [ObjectCall.exec, hinvoices], h⟩
  | merchantWalletAddressFindMany organizationId =>
    obtain rfl : organizationId = A := hc
    exact ⟨by simp only [ObjectCall.exec, hwallets], h⟩
  | webhookEndpointFindMany organizationId =>
    obtain rfl : organizationId = A := hc
    exact ⟨by simp only [ObjectCall.exec, hendpoints], h⟩
  | apiKeyFindMany organizationId =>
    obtain rfl : organizationId = A := hc
    exact ⟨by simp only [ObjectCall.exec, hkeys], h⟩
  | webhookEndpointFindFirst id organizationId =>
    obtain rfl : organizationId = A := hc
    exact endpointFindFirst_agree h
  | apiKeyFindFirst id organizationId =>
    obtain rfl : organizationId = A := hc
    exact apiKeyFindFirst_agree h
  | webhookDeliveryFindMany endpointId take => exact deliveryFindMany_agree hc hc' hl' h
  | webhookEndpointCreate d =>
    obtain rfl : d.organizationId = A := hc
    exact endpointCreate_agree hl hl' h hf hf'
  | webhookEndpointRevoke id revokedAt => exact endpointRevoke_agree hc hc' h
  | apiKeyCreate d =>
    obtain rfl : d.organizationId = A := hc
    exact apiKeyCreate_agree h hf hf'
  | apiKeyUpdate id d => exact apiKeyUpdate_agree hc hc' h
  | apiKeyFindUnique keyHash => exact hc.elim
  | membershipFindMany userId => exact hc.elim

end Agree

end CryptoPay.Tenancy
