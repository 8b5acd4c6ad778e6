import CryptoPay.Async.Embedding
import CryptoPay.Async.Sequential
import CryptoPay.Webhooks.Queues

/-!
# The addresses that a delivery connects to

`assertSafeWebhookUrl` resolves the host of the URL and examines what it gets;
`fetch` gets the URL, resolves its host again, and connects to the addresses of
its own query, one after the other until one accepts. `deliver` is
`deliverWebhook` with `fetch` carried out that way, on a network whose resolver
may answer each of the two queries differently.

Results:
* `connections_examined_iff`: in every delivery each address that is connected
  to has been examined and is public, if and only if the delivery ends before
  the POST, the host is an IP address, or the second answer has no address that
  the first one lacks.
* `connections_rebound`: a name that is rebound to the metadata service between
  the two queries.
-/

namespace CryptoPay.Webhooks

open Async

/-! ## `fetch` -/

/-- A request of the queues, or a step of `fetch`. -/
inductive NetOp where
  | base (op : Op)
  /-- The query that `fetch` makes for the host. -/
  | resolve (hostname : String)
  /-- Open a connection; whether it was accepted. -/
  | connect (address : String)
  /-- Send the request on the connection that was accepted. -/
  | exchange (request : FetchRequest)

abbrev netCalls : Signature where
  Op := NetOp
  Ret
    | .base op => calls.Ret op
    | .resolve _ => Option (List String)
    | .connect _ => Bool
    | .exchange _ => Except (Option String) ℤ

/-- Try the addresses in turn. -/
def connectFirst (request : FetchRequest) :
    List String → Prog netCalls Thrown (Except (Option String) ℤ)
  | [] => return .error (some "fetch failed")
  | address :: rest => do
    let accepted : Bool ← .perform (S := netCalls) (.connect address)
    if accepted then .perform (S := netCalls) (.exchange request) else connectFirst request rest

/-- `fetch(url, { redirect: 'manual' })`. -/
def fetchImpl (P : Platform) (request : FetchRequest) :
    Prog netCalls Thrown (Except (Option String) ℤ) :=
  match P.parseUrl request.url with
  | none => return .error (some "fetch failed")
  | some url =>
    if P.isIP url.hostname ≠ 0 then connectFirst request [url.hostname]
    else do
      let addresses : Option (List String) ← .perform (S := netCalls) (.resolve url.hostname)
      connectFirst request (addresses.getD [])

/-- How a request of the queues is carried out. -/
def carry (P : Platform) : (op : Op) → Prog netCalls Thrown (calls.Ret op)
  | .fetch _ request => fetchImpl P request
  | .db call => .perform (S := netCalls) (.base (.db call))
  | .now => .perform (S := netCalls) (.base .now)
  | .random => .perform (S := netCalls) (.base .random)
  | .generateId stem => .perform (S := netCalls) (.base (.generateId stem))
  | .lookup hostname => .perform (S := netCalls) (.base (.lookup hostname))
  | .mark m => .perform (S := netCalls) (.base (.mark m))

/-- `deliverWebhook` on the network. -/
def deliver (P : Platform) (deliveryId : String) (input : DeliverWebhookInput) :
    Prog netCalls Thrown WebhookDeliveryResult :=
  (deliverWebhook P deliveryId input).interpret (carry P)

/-! ## The network -/

/-- What the resolver answers, to the first and to the second query of a delivery. -/
structure Resolver where
  first : String → Option (List String)
  second : String → Option (List String)

inductive NetInput where
  | base (input : Input)
  | answer
  | accepted (b : Bool)
  | response (reply : Except (Option String) ℤ)

/-- The tables, the clock, the resolver and the servers. -/
def network (D : Resolver) : Machine netCalls World NetInput Act where
  respond _ w op i :=
    match op, i with
    | .base (.lookup hostname), .answer => some (D.first hostname, w)
    | .base (.lookup _), _ => none
    | .base op, .base i => respond w op i
    | .resolve hostname, .answer => some (D.second hostname, w)
    | .connect _, .accepted b => some (b, w)
    | .exchange _, .response reply => some (reply, w)
    | _, _ => none
  env := environment
  restarts _ := false

/-- The addresses to which connections were opened. -/
def connected (evs : List (Event netCalls)) : List String :=
  evs.filterMap fun ev => match ev with
    | ⟨_, .connect address, _⟩ => some address
    | _ => none

/-- The addresses of a host that is an IP address, or what the resolver answered. -/
def addressesOf (P : Platform) (answers : String → Option (List String)) (hostname : String) :
    List String :=
  if P.isIP hostname ≠ 0 then [hostname] else (answers hostname).getD []

/-- What the query of the check was answered. -/
def lookedUp (evs : List (Event netCalls)) : List String :=
  evs.flatMap fun ev => match ev with
    | ⟨_, .base (.lookup _), some addresses⟩ => addresses
    | _ => []

/-- The addresses that `assertSafeWebhookUrl` examined: a host that is an IP address, or what its
    query was answered. -/
def examined (P : Platform) (rawUrl : String) (evs : List (Event netCalls)) : List String :=
  match P.parseUrl rawUrl with
  | none => []
  | some url => if P.isIP url.hostname ≠ 0 then [url.hostname] else lookedUp evs

/-- Every address that was connected to has been examined and is public. -/
def ConnectionsExamined (P : Platform) (rawUrl : String) (evs : List (Event netCalls)) : Prop :=
  ∀ a ∈ connected evs, a ∈ examined P rawUrl evs ∧ isPrivateOrReservedIp P a = false

/-- `assertSafeWebhookUrl` accepts the URL. -/
structure Checked (P : Platform) (D : Resolver) (url : Url) : Prop where
  https : url.protocol = "https:"
  resolved : addressesOf P D.first url.hostname ≠ []
  isPublic : ∀ a ∈ addressesOf P D.first url.hostname, isPrivateOrReservedIp P a = false

/-- If the delivery gets to the POST, the host is an IP address, or the second answer of the
    resolver has no address that the first one lacks. -/
def Unrebound (P : Platform) (D : Resolver) (input : DeliverWebhookInput) : Prop :=
  ∀ url secret, P.parseUrl input.url = some url → Checked P D url →
    decryptSecret P input.secretEnc input.encryptionKey = .ok secret →
    P.isIP url.hostname ≠ 0 ∨ (D.second url.hostname).getD [] ⊆ (D.first url.hostname).getD []

/-! ## What a delivery does -/

section

variable {P : Platform} {D : Resolver} {pid : ℕ} {w w' : World} {evs evs' : List (Event netCalls)}
  {rawUrl deliveryId : String} {input : DeliverWebhookInput} {url : Url}

theorem connected_append : connected (evs ++ evs') = connected evs ++ connected evs' :=
  List.filterMap_append

theorem lookedUp_append : lookedUp (evs ++ evs') = lookedUp evs ++ lookedUp evs' :=
  List.flatMap_append

theorem examined_congr (h : lookedUp evs = lookedUp evs') :
    examined P rawUrl evs = examined P rawUrl evs' := by
  unfold examined
  rw [h]

theorem network_lookup {hostname : String} {i : NetInput} {r : Option (List String)} {w₁ w₂ : World}
    (h : (network D).respond pid w₁ (.base (.lookup hostname)) i = some (r, w₂)) :
    D.first hostname = r := by
  cases i <;> cases h
  rfl

theorem network_resolve {hostname : String} {i : NetInput} {r : Option (List String)}
    {w₁ w₂ : World} (h : (network D).respond pid w₁ (.resolve hostname) i = some (r, w₂)) :
    D.second hostname = r := by
  cases i <;> cases h
  rfl

/-- The URL check: it opens no connection, and if it accepts, it has examined the addresses of the
    first answer. -/
theorem check_runs {x : Except Thrown (Except Thrown Url)}
    (h : Runs (network D) pid ((assertSafeWebhookUrl P rawUrl).attempt.interpret (carry P)) w evs x
      w') :
    connected evs = [] ∧ ∀ url, x = .ok (.ok url) → P.parseUrl rawUrl = some url ∧
      Checked P D url ∧ examined P rawUrl evs = addressesOf P D.first url.hostname := by
  unfold assertSafeWebhookUrl at h
  cases hparse : P.parseUrl rawUrl with
  | none =>
    rw [hparse] at h
    obtain ⟨rfl, rfl, -⟩ := Runs.ret_inv h
    exact ⟨rfl, nofun⟩
  | some url =>
    rw [hparse] at h
    by_cases hhttps : url.protocol = "https:"
    · -- what remains when the addresses are known
      have hrest : ∀ {addresses : List String} {w evs x},
          Runs (network D) pid (((if addresses.isEmpty || addresses.any (isPrivateOrReservedIp P)
            then .throw (.validation "Webhook URL resolves to a private or reserved address")
            else return url : Action Url).attempt).interpret (carry P)) w evs x w' →
          evs = [] ∧ ∀ url', x = .ok (.ok url') → url' = url ∧ addresses ≠ [] ∧
            ∀ a ∈ addresses, isPrivateOrReservedIp P a = false := by
        intro addresses w evs x h
        split_ifs at h with hbad
        · obtain ⟨rfl, rfl, -⟩ := Runs.ret_inv h
          exact ⟨rfl, nofun⟩
        · obtain ⟨rfl, rfl, -⟩ := Runs.ret_inv h
          refine ⟨rfl, fun url' hurl' => ?_⟩
          cases hurl'
          simpa [List.isEmpty_iff] using hbad
      simp only [ne_eq, hhttps, not_true_eq_false, if_false] at h
      by_cases hip : P.isIP url.hostname = 0
      · unfold resolve at h
        simp only [hip, ne_eq, not_true_eq_false, if_false] at h
        obtain ⟨w₁, i, r, w₂, evs', -, hr, rfl, hk⟩ := Runs.await_inv h
        obtain rfl : D.first url.hostname = r := network_lookup hr
        have haddr : addressesOf P D.first url.hostname = (D.first url.hostname).getD [] :=
          if_neg (not_not_intro hip)
        cases hfirst : D.first url.hostname with
        | none =>
          rw [hfirst] at hk
          obtain ⟨rfl, rfl, -⟩ := Runs.ret_inv hk
          exact ⟨rfl, nofun⟩
        | some addresses =>
          rw [hfirst] at hk haddr
          obtain ⟨rfl, hok⟩ := hrest hk
          refine ⟨rfl, fun url' hx => ?_⟩
          obtain ⟨rfl, hne, hpub⟩ := hok url' hx
          refine ⟨rfl, ⟨hhttps, haddr ▸ hne, haddr ▸ hpub⟩, ?_⟩
          rw [haddr]
          simp [examined, lookedUp, hparse, hip]
      · unfold resolve at h
        simp only [hip, ne_eq, not_false_eq_true, if_true] at h
        obtain ⟨rfl, hok⟩ := hrest h
        refine ⟨rfl, fun url' hx => ?_⟩
        obtain ⟨rfl, hne, hpub⟩ := hok url' hx
        have haddr : addressesOf P D.first url'.hostname = [url'.hostname] := if_pos hip
        refine ⟨rfl, ⟨hhttps, haddr ▸ hne, haddr ▸ hpub⟩, ?_⟩
        rw [haddr]
        simp [examined, hparse, hip]
    · simp only [ne_eq, hhttps, not_false_eq_true, if_true] at h
      obtain ⟨rfl, rfl, -⟩ := Runs.ret_inv h
      exact ⟨rfl, nofun⟩

theorem connectFirst_runs {request : FetchRequest} {addresses : List String}
    {x : Except Thrown (Except (Option String) ℤ)}
    (h : Runs (network D) pid (connectFirst request addresses) w evs x w') :
    connected evs ⊆ addresses ∧ lookedUp evs = [] := by
  induction addresses generalizing w evs with
  | nil =>
    obtain ⟨rfl, -⟩ := Runs.ret_inv h
    exact ⟨List.Subset.refl _, rfl⟩
  | cons address rest ih =>
    obtain ⟨w₁, i, accepted, w₂, evs', -, -, rfl, hk⟩ := Runs.await_inv h
    cases accepted with
    | true =>
      obtain ⟨-, -, r, -, -, -, rfl, -⟩ := Runs.perform_inv hk
      exact ⟨List.cons_subset_cons _ (List.nil_subset _), rfl⟩
    | false =>
      obtain ⟨hsub, hnone⟩ := ih hk
      exact ⟨List.cons_subset_cons _ hsub, hnone⟩

/-- `fetch` connects to the host, or to addresses of the second answer. -/
theorem fetchImpl_runs {request : FetchRequest} {x : Except Thrown (Except (Option String) ℤ)}
    (hurl : P.parseUrl request.url = some url)
    (h : Runs (network D) pid (fetchImpl P request) w evs x w') :
    connected evs ⊆ addressesOf P D.second url.hostname ∧ lookedUp evs = [] := by
  unfold fetchImpl at h
  rw [hurl] at h
  unfold addressesOf
  by_cases hip : P.isIP url.hostname = 0
  · simp only [hip, ne_eq, not_true_eq_false, if_false] at h ⊢
    obtain ⟨w₁, i, r, w₂, evs', -, hr, rfl, hk⟩ := Runs.await_inv h
    rw [network_resolve hr]
    have hruns : connected evs' ⊆ r.getD [] ∧ lookedUp evs' = [] := connectFirst_runs hk
    exact hruns
  · simp only [hip, ne_eq, not_false_eq_true, if_true] at h ⊢
    exact connectFirst_runs h

/-- Once the URL is accepted. -/
theorem sendWebhook_runs {start : Time} {x : Except Thrown WebhookDeliveryResult}
    (hurl : P.parseUrl input.url = some url)
    (h : Runs (network D) pid ((sendWebhook P deliveryId input start).interpret (carry P)) w evs x
      w') :
    connected evs ⊆ addressesOf P D.second url.hostname ∧ lookedUp evs = [] ∧
      (connected evs ≠ [] → ∃ secret,
        decryptSecret P input.secretEnc input.encryptionKey = .ok secret) := by
  unfold sendWebhook at h
  cases hsecret : decryptSecret P input.secretEnc input.encryptionKey with
  | error e =>
    rw [hsecret] at h
    obtain ⟨rfl, -⟩ := Runs.throw_inv h
    exact ⟨List.nil_subset _, rfl, fun hne => absurd rfl hne⟩
  | ok secret =>
    rw [hsecret] at h
    obtain ⟨w₁, i, now, w₂, evs', -, -, rfl, hk⟩ := Runs.await_inv h
    change Runs _ _ (fetchImpl P _ >>= _) _ _ _ _ at hk
    suffices hfetch : connected evs' ⊆ addressesOf P D.second url.hostname ∧ lookedUp evs' = [] from
      ⟨hfetch.1, hfetch.2, fun _ => ⟨secret, rfl⟩⟩
    rcases Runs.bind_inv hk with ⟨response, w₃, evs₁, evs₂, rfl, hfetch, hend⟩ | ⟨e, -, hfetch⟩
    · obtain ⟨hsub, hnone⟩ := fetchImpl_runs hurl hfetch
      obtain ⟨w₄, j, end_, w₅, evs₃, hd, hr, rfl, hret⟩ := Runs.await_inv hend
      obtain ⟨rfl, -⟩ := Runs.ret_inv hret
      rw [connected_append, lookedUp_append]
      exact ⟨by simpa [connected] using hsub, by simpa [lookedUp] using hnone⟩
    · exact fetchImpl_runs hurl hfetch

theorem addressesOf_subset (h : P.isIP url.hostname ≠ 0 ∨
    (D.second url.hostname).getD [] ⊆ (D.first url.hostname).getD []) :
    addressesOf P D.second url.hostname ⊆ addressesOf P D.first url.hostname := by
  unfold addressesOf
  by_cases hip : P.isIP url.hostname = 0
  · simpa [hip] using h
  · simp [hip]

/-- A delivery opens no connection, or it has passed the check and connects to addresses of the
    second answer. -/
theorem deliver_runs {x : Except Thrown WebhookDeliveryResult}
    (h : Runs (network D) pid (deliver P deliveryId input) w evs x w') :
    connected evs = [] ∨ ∃ url secret, P.parseUrl input.url = some url ∧ Checked P D url ∧
      decryptSecret P input.secretEnc input.encryptionKey = .ok secret ∧
      connected evs ⊆ addressesOf P D.second url.hostname ∧
      examined P input.url evs = addressesOf P D.first url.hostname := by
  unfold deliver deliverWebhook at h
  obtain ⟨w₁, i, start, w₂, evs', -, -, rfl, hk⟩ := Runs.await_inv h
  change Runs _ _ (Prog.interpret _ ((assertSafeWebhookUrl P input.url).attempt >>= _)) _ _ _ _ at hk
  rw [Prog.interpret_bind] at hk
  rcases Runs.bind_inv hk with ⟨checked, w₃, evs₁, evs₂, rfl, hcheck, hrest⟩ | ⟨e, -, hcheck⟩
  · obtain ⟨hnone, hok⟩ := check_runs hcheck
    have hconnected : connected ((⟨pid, .base .now, start⟩ : Event netCalls) :: (evs₁ ++ evs₂)) =
        connected evs₂ := by
      show connected (evs₁ ++ evs₂) = _
      rw [connected_append, hnone, List.nil_append]
    rw [hconnected]
    cases checked with
    | error e =>
      obtain ⟨w₄, j, now, w₅, evs₃, -, -, rfl, hret⟩ := Runs.await_inv hrest
      obtain ⟨rfl, -⟩ := Runs.ret_inv hret
      exact .inl rfl
    | ok url =>
      obtain ⟨hurl, hchecked, hexamined⟩ := hok url rfl
      obtain ⟨w₄, j, ⟨⟩, w₅, evs₃, -, -, rfl, hsend⟩ := Runs.await_inv hrest
      obtain ⟨hsub, hlooked, hsecret⟩ := sendWebhook_runs hurl hsend
      by_cases hne : connected evs₃ = []
      · exact .inl hne
      · obtain ⟨secret, hsecret⟩ := hsecret hne
        refine .inr ⟨url, secret, hurl, hchecked, hsecret, hsub, ?_⟩
        rw [← hexamined]
        refine examined_congr ?_
        show lookedUp (evs₁ ++ _) = _
        rw [lookedUp_append]
        simpa [lookedUp] using hlooked
  · exact .inl (check_runs hcheck).1

/-- A delivery that is not rebound connects to addresses that it has examined. -/
theorem examined_of_unrebound (hu : Unrebound P D input) {x : Except Thrown WebhookDeliveryResult}
    (h : Runs (network D) pid (deliver P deliveryId input) w evs x w') :
    ConnectionsExamined P input.url evs := by
  intro a ha
  rcases deliver_runs h with hnone | ⟨url, secret, hurl, hchecked, hsecret, hsub, hexamined⟩
  · exact absurd (hnone ▸ ha) List.not_mem_nil
  · have hfirst := addressesOf_subset (hu url secret hurl hchecked hsecret) (hsub ha)
    exact ⟨hexamined ▸ hfirst, hchecked.isPublic a hfirst⟩

/-! ## A delivery that is rebound -/

/-- Some run of the program connects to the address. -/
def Connects {α : Type} (D : Resolver) (pid : ℕ) (p : Prog netCalls Thrown α) (w : World)
    (a : String) : Prop :=
  ∃ evs x w', Runs (network D) pid p w evs x w' ∧ a ∈ connected evs

/-- The network can answer every request. -/
theorem network_total (D : Resolver) (pid : ℕ) (w : World) (op : NetOp) :
    ∃ i y, (network D).respond pid w op i = some y := by
  cases op with
  | base op =>
    cases op with
    | db call => exact ⟨.base .ok, _, rfl⟩
    | now => exact ⟨.base .ok, _, rfl⟩
    | random => exact ⟨.base (.random 0), ((0 : ℚ), w), by simp [network, respond]⟩
    | generateId stem => exact ⟨.base (.id ""), _, rfl⟩
    | lookup hostname => exact ⟨.answer, _, rfl⟩
    | fetch deliveryId request => exact ⟨.base (.response (.ok 200)), _, rfl⟩
    | mark m => exact ⟨.base .ok, _, rfl⟩
  | resolve hostname => exact ⟨.answer, _, rfl⟩
  | connect a => exact ⟨.accepted true, _, rfl⟩
  | exchange request => exact ⟨.response (.ok 200), _, rfl⟩

variable {α β : Type} {a : String}

theorem Connects.await {op : NetOp} {k : netCalls.Ret op → Prog netCalls Thrown α}
    {r : netCalls.Ret op} (i : NetInput) (hr : (network D).respond pid w op i = some (r, w'))
    (h : Connects D pid (k r) w' a) : Connects D pid (.await op k) w a := by
  obtain ⟨evs, x, w₁, hrun, ha⟩ := h
  refine ⟨_, x, w₁, .await i hr hrun, ?_⟩
  show a ∈ connected ([⟨pid, op, r⟩] ++ evs)
  rw [connected_append]
  exact List.mem_append_right _ ha

theorem Connects.connect {k : Bool → Prog netCalls Thrown α} :
    Connects D pid (.await (.connect a) k) w a := by
  obtain ⟨evs, x, w₁, hrun⟩ := (k true).exists_runs (network_total D pid) w
  exact ⟨_, x, w₁, .await (.accepted true) rfl hrun, List.mem_cons_self⟩

theorem Connects.bind {p : Prog netCalls Thrown α} {f : α → Prog netCalls Thrown β}
    (h : Connects D pid p w a) : Connects D pid (p >>= f) w a := by
  obtain ⟨evs, x, w₁, hrun, ha⟩ := h
  cases x with
  | error e => exact ⟨evs, _, w₁, hrun.bind_error, ha⟩
  | ok b =>
    obtain ⟨evs', x', w₂, hrun'⟩ := (f b).exists_runs (network_total D pid) w₁
    refine ⟨_, x', w₂, hrun.bind hrun', ?_⟩
    rw [connected_append]
    exact List.mem_append_left _ ha

/-- Each of the addresses may be the one that accepts. -/
theorem connectFirst_connects {request : FetchRequest} {addresses : List String}
    (ha : a ∈ addresses) : Connects D pid (connectFirst request addresses) w a := by
  induction addresses with
  | nil => exact absurd ha List.not_mem_nil
  | cons address rest ih =>
    rcases List.mem_cons.mp ha with rfl | ha
    · exact .connect
    · exact .await (.accepted false) rfl (ih ha)

theorem connects_second {secret : String} (hurl : P.parseUrl input.url = some url)
    (hchecked : Checked P D url) (hip : P.isIP url.hostname = 0)
    (hsecret : decryptSecret P input.secretEnc input.encryptionKey = .ok secret)
    (ha : a ∈ (D.second url.hostname).getD []) : Connects D pid (deliver P deliveryId input) w a := by
  have haddr : addressesOf P D.first url.hostname = (D.first url.hostname).getD [] :=
    if_neg (not_not_intro hip)
  obtain ⟨hhttps, hresolved, hpublic⟩ := hchecked
  rw [haddr] at hresolved hpublic
  cases hfirst : D.first url.hostname with
  | none => exact absurd (by rw [hfirst]; rfl) hresolved
  | some addresses =>
    rw [hfirst] at hresolved hpublic
    have hgood : (addresses.isEmpty || addresses.any (isPrivateOrReservedIp P)) = false := by
      simpa using ⟨hresolved, hpublic⟩
    unfold deliver deliverWebhook
    refine .await (.base .ok) rfl ?_
    change Connects D pid (Prog.interpret _ ((assertSafeWebhookUrl P input.url).attempt >>= _)) _ a
    simp only [assertSafeWebhookUrl, hurl, hhttps, resolve, hip, ne_eq, not_true_eq_false, if_false]
    refine .await (r := some addresses) .answer (by rw [← hfirst]; rfl) ?_
    change Connects D pid (Prog.interpret _ (((if addresses.isEmpty ||
      addresses.any (isPrivateOrReservedIp P) then _ else _ : Action Url).attempt) >>= _)) _ a
    simp only [hgood, Bool.false_eq_true, if_false]
    refine .await (.base .ok) rfl ?_
    change Connects D pid (Prog.interpret _ (sendWebhook P deliveryId input _)) _ a
    unfold sendWebhook
    rw [hsecret]
    refine .await (.base .ok) rfl ?_
    change Connects D pid (fetchImpl P _ >>= _) _ a
    refine .bind ?_
    simp only [fetchImpl, hurl, hip, ne_eq, not_true_eq_false, if_false]
    refine .await (r := D.second url.hostname) .answer rfl ?_
    exact connectFirst_connects ha

/-- Every address that a delivery connects to is one that it has examined and found public, if and
    only if the answers of the resolver allow it. -/
theorem connections_examined_iff (P : Platform) (D : Resolver) (deliveryId : String)
    (input : DeliverWebhookInput) (pid : ℕ) (w : World) :
    (∀ evs x w', Runs (network D) pid (deliver P deliveryId input) w evs x w' →
      ConnectionsExamined P input.url evs) ↔ Unrebound P D input := by
  refine ⟨fun h => ?_, fun hu evs x w' hrun => examined_of_unrebound hu hrun⟩
  intro url secret hurl hchecked hsecret
  by_cases hip : P.isIP url.hostname = 0
  · refine .inr fun a ha => ?_
    have hconnects : Connects D pid (deliver P deliveryId input) w a :=
      connects_second hurl hchecked hip hsecret ha
    obtain ⟨evs, x, w', hrun, hmem⟩ := hconnects
    obtain ⟨hexamined, -⟩ := h evs x w' hrun a hmem
    rcases deliver_runs hrun with hnone | ⟨url', -, hurl', -, -, -, hfirst⟩
    · exact absurd (hnone ▸ hmem) List.not_mem_nil
    · obtain rfl : url = url' := Option.some.inj (hurl.symm.trans hurl')
      rw [hfirst] at hexamined
      exact (if_neg (not_not_intro hip) : addressesOf P D.first url.hostname = _) ▸ hexamined
  · exact .inl hip

end

/-! ## A run -/

/-- Node, which knows the two addresses below. -/
def reboundPlatform : Platform where
  parseUrl := samplePlatform.parseUrl
  isIP s := if s = "93.184.216.34" ∨ s = "169.254.169.254" then 4 else 0
  fromBase64 := samplePlatform.fromBase64
  decipher := samplePlatform.decipher
  toUtf8 := samplePlatform.toUtf8
  hmacSha256Hex := samplePlatform.hmacSha256Hex

/-- The name is rebound to the metadata service after the first query. -/
def rebinding : Resolver where
  first _ := some ["93.184.216.34"]
  second _ := some ["169.254.169.254"]

def reboundDelivery : DeliverWebhookInput where
  url := "https://m.example/h"
  secretEnc := goodSecret
  event := sampleEvent "evt_1" "org" 0
  encryptionKey := sampleKey

/-- A delivery that connects to the metadata service. -/
theorem connections_rebound : ∃ evs x w', Runs (network rebinding) 0
    (deliver reboundPlatform "whd_1" reboundDelivery) sampleWorld evs x w' ∧
    connected evs = ["169.254.169.254"] ∧
    ¬ ConnectionsExamined reboundPlatform reboundDelivery.url evs := by
  obtain ⟨evs, x, w', hrun, hview⟩ := Runs.view (network rebinding) 0
    (deliver reboundPlatform "whd_1" reboundDelivery) sampleWorld
    [.base .ok, .answer, .base .ok, .base .ok, .answer, .accepted true, .response (.ok 200),
      .base .ok]
    (f := fun y => (connected y.1, examined reboundPlatform reboundDelivery.url y.1))
    (y := (["169.254.169.254"], ["93.184.216.34"])) (by decide +kernel)
  obtain ⟨hconnected, hexamined⟩ := Prod.mk.inj hview
  refine ⟨evs, x, w', hrun, hconnected, fun h => ?_⟩
  obtain ⟨hmem, -⟩ := h "169.254.169.254" (hconnected ▸ List.mem_singleton_self _)
  rw [hexamined] at hmem
  exact absurd hmem (by decide)

end CryptoPay.Webhooks
