import CryptoPay.Data.Addresses
import CryptoPay.Webhooks.Deliver

/-!
# Which addresses the guard refuses

`isPrivateOrReservedIp` of `packages/webhooks/src/ssrf-guard.ts` compares texts. Here
it is compared with the blocks of addresses that it names.

Results:
* `isPrivateIpv4_iff`: an IPv4 address is refused exactly if it lies in one of the blocks.
* `refuses_iff`: what an IPv6 text is refused for.
* `guard_classifies_iff`: the spellings of a reserved address that are refused.
-/

namespace CryptoPay.Webhooks

open Data (Address Cidr address? ipv4? hextet? hex? lowerCase)

/-! ## The blocks -/

/-- The blocks of lines 20–25. -/
def reservedIpv4 : List (Cidr 32) :=
  [⟨127 * 2 ^ 24, 8⟩, ⟨10 * 2 ^ 24, 8⟩, ⟨172 * 2 ^ 24 + 16 * 2 ^ 16, 12⟩,
    ⟨192 * 2 ^ 24 + 168 * 2 ^ 16, 16⟩, ⟨169 * 2 ^ 24 + 254 * 2 ^ 16, 16⟩, ⟨0, 8⟩]

/-- `::1`. -/
def loopback : Cidr 128 := ⟨1, 128⟩

/-- `::`. -/
def unspecified : Cidr 128 := ⟨0, 128⟩

/-- `fe80::/10`. -/
def linkLocal : Cidr 128 := ⟨0xfe80 * 2 ^ 112, 10⟩

/-- `fc00::/7`. -/
def uniqueLocal : Cidr 128 := ⟨0xfc00 * 2 ^ 112, 7⟩

/-- `::ffff:0:0/96`, the IPv4-mapped addresses. -/
def mapped : Cidr 128 := ⟨0xffff * 2 ^ 32, 96⟩

/-- The IPv4 address lies in one of the blocks. -/
def ReservedIpv4 (a : ℕ) : Prop := ∃ b ∈ reservedIpv4, b.Contains a

instance (a : ℕ) : Decidable (ReservedIpv4 a) :=
  inferInstanceAs (Decidable (∃ b ∈ reservedIpv4, _))

/-- The hexadecimal digit in lower case. -/
def hexChar (d : Fin 16) : Char := "0123456789abcdef".toList.get d

/-- The address lies in one of the blocks, or stands for an IPv4 address that does. -/
def Reserved : Address → Prop
  | .v4 a => ReservedIpv4 a
  | .v6 a => loopback.Contains a ∨ unspecified.Contains a ∨ linkLocal.Contains a ∨
    uniqueLocal.Contains a ∨ mapped.Contains a ∧ ReservedIpv4 (a % 2 ^ 32)

/-- The platform with `isIP` of `node:net`. -/
def Platform.node (P : Platform) : Platform := { P with isIP := fun ip => Data.isIP ip.toList }

/-- What the guard is to say about a text that denotes this address. -/
def Classifies (P : Platform) (ip : String) (a : Address) : Prop :=
  (Reserved a → isPrivateOrReservedIp P ip = true) ∧
    ∀ n, a = .v4 n → ¬ Reserved a → isPrivateOrReservedIp P ip = false

/-- The spellings that the guard knows: every one of an IPv4 address and of a unique local one,
    one of `::1` and one of `::`, those of `fe80::/16`, and of a mapped address those that start
    with `::ffff:`. -/
def Recognised (ip : String) : Address → Prop
  | .v4 _ => True
  | .v6 a => (loopback.Contains a → ip = "::1") ∧ (unspecified.Contains a → ip = "::") ∧
    (linkLocal.Contains a → a / 2 ^ 112 = 0xfe80) ∧
    (mapped.Contains a ∧ ReservedIpv4 (a % 2 ^ 32) → "::ffff:".toList <+: lowerCase ip.toList)

section Blocks

variable {a : ℕ}

theorem loopback_iff : loopback.Contains a ↔ a = 1 := by
  rw [Cidr.Contains, loopback, Nat.sub_self, pow_zero, Nat.div_one, Nat.div_one]

theorem unspecified_iff : unspecified.Contains a ↔ a = 0 := by
  rw [Cidr.Contains, unspecified, Nat.sub_self, pow_zero, Nat.div_one, Nat.div_one]

theorem linkLocal_iff : linkLocal.Contains a ↔ a / 2 ^ 112 / 64 = 1018 := by
  rw [Nat.div_div_eq_div_mul]
  exact Iff.rfl

theorem uniqueLocal_iff : uniqueLocal.Contains a ↔ a / 2 ^ 112 / 512 = 126 := by
  rw [Nat.div_div_eq_div_mul]
  exact Iff.rfl

theorem mapped_iff : mapped.Contains a ↔ a / 2 ^ 32 = 65535 := Iff.rfl

end Blocks

/-! ## IPv4 -/

/-- An IPv4 address is refused exactly if it lies in one of the blocks. -/
theorem isPrivateIpv4_iff {t : List Char} {a : ℕ} (h : ipv4? t = some a) :
    isPrivateIpv4 t = true ↔ ReservedIpv4 a := by
  obtain ⟨t₁, t₂, t₃, t₄, n₁, n₂, n₃, n₄, hsplit, h₁, h₂, h₃, h₄, rfl⟩ := Data.ipv4?_eq_some h
  obtain ⟨hd₁, hn₁, -⟩ := Data.octet?_eq_some h₁
  obtain ⟨hd₂, hn₂, -⟩ := Data.octet?_eq_some h₂
  obtain ⟨-, hn₃, -⟩ := Data.octet?_eq_some h₃
  obtain ⟨-, hn₄, -⟩ := Data.octet?_eq_some h₄
  unfold isPrivateIpv4
  simp only [hsplit, List.map_cons, hd₁, hd₂, ReservedIpv4, reservedIpv4,
    List.mem_cons, List.not_mem_nil, or_false, exists_eq_or_imp, exists_eq_left, Cidr.Contains,
    Option.any_some, Option.some.injEq, Bool.or_eq_true, Bool.and_eq_true, decide_eq_true_eq]
  omega

/-! ## The first group -/

section First

variable {t : List Char} {a : ℕ}

theorem mem_lower {c : Char} (h : c ∈ lowerCase t) : c.toLower = c := by
  obtain ⟨x, -, rfl⟩ := List.mem_map.mp h
  exact Char.toLower_toLower_eq_toLower x

theorem lower_eq_iff {u : List Char} (hu : ∀ c ∈ u, c.isAlpha = false) :
    lowerCase t = u ↔ t = u := by
  induction u generalizing t with
  | nil => exact List.map_eq_nil_iff
  | cons c u ih =>
    obtain ⟨hc, hu⟩ := List.forall_mem_cons.mp hu
    cases t with
    | nil => exact iff_of_false nofun nofun
    | cons x t =>
      show x.toLower :: lowerCase t = c :: u ↔ _
      rw [List.cons_eq_cons, List.cons_eq_cons, Data.toLower_eq_iff hc, ih hu]

/-- The text starts with a group and a colon: this is the first group. -/
theorem first_of_append (h : address? t = some (.v6 a)) {p r : List Char} (hp : ':' ∉ p)
    (hne : p ≠ []) (ht : t = p ++ ':' :: r) : hextet? p = some (a / 2 ^ 112) := by
  rcases Data.address?_first h with ⟨⟨r', hr'⟩, -⟩ | ⟨p', r', hr', hp', hfirst⟩
  · obtain ⟨c, p, rfl⟩ := List.exists_cons_of_ne_nil hne
    rw [ht] at hr'
    obtain ⟨rfl, -⟩ := List.cons_eq_cons.mp hr'
    exact absurd List.mem_cons_self hp
  · have hlen : p = p' := by
      rw [ht] at hr'
      have htake := congrArg (List.takeWhile (· ≠ ':')) hr'
      have hall : ∀ {q : List Char}, ':' ∉ q → ∀ c ∈ q, decide (c ≠ ':') = true :=
        fun hq c hc => decide_eq_true fun heq => hq (heq ▸ hc)
      rw [List.takeWhile_append_of_pos (hall hp), List.takeWhile_append_of_pos (hall hp')] at htake
      simpa using htake
    rw [hlen]
    exact hfirst

/-- A first group of four digits. -/
theorem first_digits (h : address? (lowerCase t) = some (.v6 a)) (ha : 4096 ≤ a / 2 ^ 112) :
    ∃ d₁ d₂ d₃ d₄ : Fin 16, ∃ r,
      lowerCase t = hexChar d₁ :: hexChar d₂ :: hexChar d₃ :: hexChar d₄ :: ':' :: r ∧
        a / 2 ^ 112 = ((d₁.val * 16 + d₂) * 16 + d₃) * 16 + d₄ := by
  rcases Data.address?_first h with ⟨-, hzero⟩ | ⟨p, r, hr, -, hfirst⟩
  · omega
  · obtain ⟨c₁, c₂, c₃, c₄, rfl⟩ := Data.hextet?_digits hfirst ha
    obtain ⟨d₁, d₂, d₃, d₄, h₁, h₂, h₃, h₄, heq⟩ := Data.hextet?_four hfirst
    have hchar : ∀ {c : Char} {d : ℕ}, c ∈ lowerCase t → hex? c = some d →
        ∃ hd : d < 16, c = hexChar ⟨d, hd⟩ := by
      intro c d hc hd
      obtain ⟨hlt, hlower⟩ := Data.hex?_eq_some hd
      exact ⟨hlt, (mem_lower hc).symm.trans hlower⟩
    obtain ⟨hd₁, rfl⟩ := hchar (by rw [hr]; simp) h₁
    obtain ⟨hd₂, rfl⟩ := hchar (by rw [hr]; simp) h₂
    obtain ⟨hd₃, rfl⟩ := hchar (by rw [hr]; simp) h₃
    obtain ⟨hd₄, rfl⟩ := hchar (by rw [hr]; simp) h₄
    exact ⟨⟨d₁, hd₁⟩, ⟨d₂, hd₂⟩, ⟨d₃, hd₃⟩, ⟨d₄, hd₄⟩, r, hr, heq⟩

/-- `startsWith('fe80:')` (line 32). -/
theorem linkLocal_block (h : address? (lowerCase t) = some (.v6 a)) :
    "fe80:".toList.isPrefixOf (lowerCase t) = true ↔ a / 2 ^ 112 = 0xfe80 := by
  rw [List.isPrefixOf_iff_prefix]
  constructor
  · rintro ⟨r, hr⟩
    have hfirst := first_of_append h (p := "fe80".toList) (r := r) (by decide) (by decide) hr.symm
    have hvalue : hextet? "fe80".toList = some 0xfe80 := by decide
    exact Option.some.inj (hfirst.symm.trans hvalue)
  · intro ha
    obtain ⟨d₁, d₂, d₃, d₄, r, hr, heq⟩ := first_digits h (by omega)
    have h₁ : d₁ = 15 := Fin.ext (by show d₁.val = 15; omega)
    have h₂ : d₂ = 14 := Fin.ext (by show d₂.val = 14; omega)
    have h₃ : d₃ = 8 := Fin.ext (by show d₃.val = 8; omega)
    have h₄ : d₄ = 0 := Fin.ext (by show d₄.val = 0; omega)
    exact ⟨r, by rw [hr, h₁, h₂, h₃, h₄]; rfl⟩

theorem isLowerHex_hexChar (d : Fin 16) : isLowerHex (hexChar d) = true := by
  revert d
  decide

/-- `/^f[cd][0-9a-f]{2}:/` (line 33). -/
theorem uniqueLocal_iff_match (h : address? (lowerCase t) = some (.v6 a)) :
    isUniqueLocal (lowerCase t) = true ↔ uniqueLocal.Contains a := by
  rw [uniqueLocal_iff]
  constructor
  · intro hmatch
    unfold isUniqueLocal at hmatch
    split at hmatch
    · rename_i f x c₃ c₄ colon r hr
      simp only [Bool.and_eq_true, Bool.or_eq_true, decide_eq_true_eq] at hmatch
      obtain ⟨⟨⟨⟨rfl, hx⟩, h₃⟩, h₄⟩, rfl⟩ := hmatch
      have hcolon : ∀ {c : Char}, isLowerHex c = true → ':' ≠ c := by
        rintro c hc rfl
        exact absurd hc (by decide)
      have hp : ':' ∉ ['f', x, c₃, c₄] := by
        have hne : ':' ≠ x := by rcases hx with rfl | rfl <;> decide
        simp [hne, hcolon h₃, hcolon h₄]
      have hfirst := first_of_append h hp (List.cons_ne_nil _ _) hr
      obtain ⟨d₁, d₂, d₃, d₄, h₁, h₂, h₃, h₄, heq⟩ := Data.hextet?_four hfirst
      obtain ⟨hd₃, -⟩ := Data.hex?_eq_some h₃
      obtain ⟨hd₄, -⟩ := Data.hex?_eq_some h₄
      have hone : d₁ = 15 := Option.some.inj (h₁.symm.trans (by decide))
      have htwo : d₂ = 12 ∨ d₂ = 13 := by
        rcases hx with rfl | rfl
        · exact .inl (Option.some.inj (h₂.symm.trans (by decide)))
        · exact .inr (Option.some.inj (h₂.symm.trans (by decide)))
      omega
    · cases hmatch
  · intro ha
    obtain ⟨d₁, d₂, d₃, d₄, r, hr, heq⟩ := first_digits h (by omega)
    have h₁ : d₁ = 15 := Fin.ext (by show d₁.val = 15; omega)
    have h₂ : d₂ = 12 ∨ d₂ = 13 := by
      have hor : d₂.val = 12 ∨ d₂.val = 13 := by omega
      exact hor.imp (fun hv => Fin.ext hv) fun hv => Fin.ext hv
    rw [hr, h₁, isUniqueLocal, isLowerHex_hexChar, isLowerHex_hexChar]
    rcases h₂ with rfl | rfl <;> decide

end First

/-! ## IPv6 -/

section Ipv6

variable {P : Platform} {t : List Char} {a : ℕ}

theorem node_isIP (t : List Char) : P.node.isIP (String.ofList t) = Data.isIP t := by
  show Data.isIP (String.ofList t).toList = _
  rw [String.toList_ofList]

/-- An IPv4 address. -/
theorem isPrivate_v4 (h : address? t = some (.v4 a)) :
    isPrivateOrReserved P.node t = true ↔ ReservedIpv4 a := by
  rw [isPrivateOrReserved, node_isIP, Data.isIP, h]
  exact isPrivateIpv4_iff (Data.address?_v4 h)

/-- A text that denotes no address is refused. -/
theorem isPrivate_none (h : Data.isIP t = 0) : isPrivateOrReserved P.node t = true := by
  rw [isPrivateOrReserved, node_isIP, h]
  rfl

/-- What an IPv6 text is refused for. -/
theorem refuses_iff (h : address? t = some (.v6 a)) :
    isPrivateOrReserved P.node t = true ↔ lowerCase t = "::1".toList ∨ lowerCase t = "::".toList ∨
      "fe80:".toList.isPrefixOf (lowerCase t) = true ∨ isUniqueLocal (lowerCase t) = true ∨
        "::ffff:".toList.isPrefixOf (lowerCase t) = true ∧
          isPrivateOrReserved P.node ((lowerCase t).drop 7) = true := by
  rw [isPrivateOrReserved, node_isIP, Data.isIP, h]
  simp only [Bool.or_eq_true, decide_eq_true_eq]
  split_ifs with h₁ h₂ h₃ h₄ <;> tauto

theorem address?_lower_eq (h : address? t = some (.v6 a)) : address? (lowerCase t) = some (.v6 a) :=
  (Data.address?_lower t).trans h

/-- A text that starts with `::ffff:`. -/
theorem mapped_prefix (h : address? t = some (.v6 a))
    (hmapped : "::ffff:".toList <+: lowerCase t) : 65535 ≤ a ∧ a / 2 ^ 112 = 0 ∧
      (mapped.Contains a ∧ ReservedIpv4 (a % 2 ^ 32) →
        isPrivateOrReserved P.node ((lowerCase t).drop 7) = true) := by
  have hlower := address?_lower_eq h
  obtain ⟨r, hr⟩ := hmapped
  rw [← hr] at hlower ⊢
  obtain ⟨hlow, hrest⟩ := Data.address?_mapped hlower
  refine ⟨hlow, ?_, ?_⟩
  · rcases Data.address?_first hlower with ⟨-, hzero⟩ | ⟨p, r', hr', hp, hfirst⟩
    · exact hzero
    · -- no group stands before the first colon
      obtain ⟨hne, -⟩ := Data.hextet?_eq_some hfirst
      obtain ⟨c, p, rfl⟩ := List.exists_cons_of_ne_nil hne
      obtain ⟨rfl, -⟩ := List.cons_eq_cons.mp hr'
      exact absurd List.mem_cons_self hp
  · rintro ⟨-, hreserved⟩
    show isPrivateOrReserved P.node r = true
    rcases hrest with ⟨v, hv, heq⟩ | hnone
    · have hv' : address? r = some (.v4 v) := by rw [address?, hv]
      rw [isPrivate_v4 hv']
      have hlt := Data.ipv4?_lt hv
      have hmod : a % 2 ^ 32 = v := by omega
      rw [hmod] at hreserved
      exact hreserved
    · exact isPrivate_none hnone

theorem caseless_loopback : ∀ c ∈ "::1".toList, c.isAlpha = false := by
  intro c hc
  have hor : c = ':' ∨ c = '1' := by simpa using hc
  rcases hor with rfl | rfl <;> rfl

theorem caseless_unspecified : ∀ c ∈ "::".toList, c.isAlpha = false := by
  intro c hc
  have heq : c = ':' := by simpa using hc
  rw [heq]
  rfl

theorem loopback_of_eq (h : address? t = some (.v6 a)) (ht : t = "::1".toList) : a = 1 := by
  rw [ht] at h
  have hone : address? "::1".toList = some (.v6 1) := by decide
  exact Address.v6.inj (Option.some.inj (h.symm.trans hone))

theorem unspecified_of_eq (h : address? t = some (.v6 a)) (ht : t = "::".toList) : a = 0 := by
  rw [ht] at h
  have hzero : address? "::".toList = some (.v6 0) := by decide
  exact Address.v6.inj (Option.some.inj (h.symm.trans hzero))

/-- A refused text and its address. -/
theorem refused_cases (h : address? t = some (.v6 a))
    (hrefused : isPrivateOrReserved P.node t = true) :
    (t = "::1".toList ∧ a = 1) ∨ (t = "::".toList ∧ a = 0) ∨ a / 2 ^ 112 = 0xfe80 ∨
      a / 2 ^ 112 / 512 = 126 ∨
        "::ffff:".toList <+: lowerCase t ∧ 65535 ≤ a ∧ a / 2 ^ 112 = 0 := by
  have hlower := address?_lower_eq h
  rcases (refuses_iff h).mp hrefused with hone | hzero | hlink | hunique | ⟨hmapped, -⟩
  · have ht : t = "::1".toList := (lower_eq_iff caseless_loopback).mp hone
    exact .inl ⟨ht, loopback_of_eq h ht⟩
  · have ht : t = "::".toList := (lower_eq_iff caseless_unspecified).mp hzero
    exact .inr (.inl ⟨ht, unspecified_of_eq h ht⟩)
  · exact .inr (.inr (.inl ((linkLocal_block hlower).mp hlink)))
  · exact .inr (.inr (.inr (.inl (uniqueLocal_iff.mp ((uniqueLocal_iff_match hlower).mp hunique)))))
  · rw [List.isPrefixOf_iff_prefix] at hmapped
    obtain ⟨hlow, hfirst, -⟩ := mapped_prefix (P := P) h hmapped
    exact .inr (.inr (.inr (.inr ⟨hmapped, hlow, hfirst⟩)))

end Ipv6

/-- For every text that denotes an address: the guard refuses it if the address is reserved, and
    accepts it if it is an IPv4 address that is not, exactly when the spelling is one that the
    guard recognises. -/
theorem guard_classifies_iff (P : Platform) {ip : String} {a : Address} (h : address? ip.toList = some a) :
    Classifies P.node ip a ↔ Recognised ip a := by
  unfold Classifies isPrivateOrReservedIp
  cases a with
  | v4 a =>
    have hrefuse := isPrivate_v4 (P := P) h
    refine iff_of_true ⟨fun hreserved => hrefuse.mpr hreserved, fun n _ hfree => ?_⟩ trivial
    rw [← Bool.not_eq_true]
    exact fun hrefused => hfree (hrefuse.mp hrefused)
  | v6 a =>
    have hlower := address?_lower_eq h
    constructor
    · rintro ⟨hrefuses, -⟩
      have hcases := fun hreserved => refused_cases h (hrefuses hreserved)
      refine ⟨fun hloop => ?_, fun hzero => ?_, fun hlink => ?_, fun hmap => ?_⟩
      · have hone := loopback_iff.mp hloop
        rcases hcases (.inl hloop) with ⟨ht, -⟩ | ⟨-, heq⟩ | heq | heq | ⟨-, hlow, -⟩
        · exact String.toList_inj.mp ht
        all_goals omega
      · have heq := unspecified_iff.mp hzero
        rcases hcases (.inr (.inl hzero)) with ⟨-, hone⟩ | ⟨ht, -⟩ | hfirst | hfirst | ⟨-, hlow, -⟩
        · omega
        · exact String.toList_inj.mp ht
        all_goals omega
      · have hten := linkLocal_iff.mp hlink
        rcases hcases (.inr (.inr (.inl hlink))) with ⟨-, heq⟩ | ⟨-, heq⟩ | hfirst | hfirst |
            ⟨-, -, hfirst⟩
        · omega
        · omega
        · exact hfirst
        all_goals omega
      · have hhigh := mapped_iff.mp hmap.1
        rcases hcases (.inr (.inr (.inr (.inr hmap)))) with ⟨-, heq⟩ | ⟨-, heq⟩ | hfirst | hfirst |
            ⟨hmapped, -⟩
        case inr.inr.inr.inr => exact hmapped
        all_goals omega
    · rintro ⟨hloop, hzero, hlink, hmap⟩
      refine ⟨fun hreserved => (refuses_iff h).mpr ?_, fun n hn => by cases hn⟩
      rcases hreserved with hreserved | hreserved | hreserved | hreserved | hreserved
      · left
        rw [hloop hreserved]
        decide
      · right; left
        rw [hzero hreserved]
        decide
      · right; right; left
        exact (linkLocal_block hlower).mpr (hlink hreserved)
      · right; right; right; left
        exact (uniqueLocal_iff_match hlower).mpr hreserved
      · right; right; right; right
        obtain ⟨-, -, hrest⟩ := mapped_prefix (P := P) h (hmap hreserved)
        exact ⟨List.isPrefixOf_iff_prefix.mpr (hmap hreserved), hrest hreserved⟩

/-- A platform that knows no URL. -/
def bare : Platform where
  parseUrl _ := none
  isIP _ := 0
  fromBase64 _ := []
  decipher _ _ _ _ := .error ""
  toUtf8 _ := ""
  hmacSha256Hex _ _ := ""

theorem guard_classifies_fe80 : address? "FE80::1%eth0".toList = some (.v6 (0xfe80 * 2 ^ 112 + 1)) ∧
    Classifies bare.node "FE80::1%eth0" (.v6 (0xfe80 * 2 ^ 112 + 1)) := by
  have haddress : address? "FE80::1%eth0".toList = some (.v6 (0xfe80 * 2 ^ 112 + 1)) := by
    decide
  refine ⟨haddress, (guard_classifies_iff bare haddress).mpr
    ⟨fun hloop => ?_, fun hzero => ?_, fun _ => ?_, fun hmap => ?_⟩⟩
  · exact absurd (loopback_iff.mp hloop) (by norm_num)
  · exact absurd (unspecified_iff.mp hzero) (by norm_num)
  · norm_num
  · exact absurd (mapped_iff.mp hmap.1) (by norm_num)

/-- Neither a link-local address outside `fe80::/16` nor the loopback address written out is
    refused. -/
theorem guard_misses :
    (address? "fe90::1".toList = some (.v6 (0xfe90 * 2 ^ 112 + 1)) ∧
      Reserved (.v6 (0xfe90 * 2 ^ 112 + 1)) ∧ isPrivateOrReservedIp bare.node "fe90::1" = false) ∧
    address? "0:0:0:0:0:0:0:1".toList = address? "::1".toList ∧
      isPrivateOrReservedIp bare.node "::1" = true ∧
      isPrivateOrReservedIp bare.node "0:0:0:0:0:0:0:1" = false := by
  have hlink : address? "fe90::1".toList = some (.v6 (0xfe90 * 2 ^ 112 + 1)) := by decide
  have hshort : address? "::1".toList = some (.v6 1) := by decide
  have hlong : address? "0:0:0:0:0:0:0:1".toList = some (.v6 1) := by decide
  refine ⟨⟨hlink, .inr (.inr (.inl (linkLocal_iff.mpr (by norm_num)))), ?_⟩,
    hlong.trans hshort.symm, (refuses_iff hshort).mpr (.inl (by decide)), ?_⟩
  · rw [← Bool.not_eq_true]
    intro hrefused
    rcases refused_cases hlink hrefused with ⟨-, h⟩ | ⟨-, h⟩ | h | h | ⟨-, -, h⟩
    all_goals norm_num at h
  · rw [← Bool.not_eq_true]
    intro hrefused
    rcases refused_cases hlong hrefused with ⟨h, -⟩ | ⟨-, h⟩ | h | h | ⟨-, h, -⟩
    · exact absurd h (by decide)
    all_goals norm_num at h

end CryptoPay.Webhooks
