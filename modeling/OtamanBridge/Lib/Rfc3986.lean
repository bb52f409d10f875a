import OtamanBridge.Lib.PyTime

/-!
# Addresses with an authority

The grammar of RFC 3986 for the URIs that name a host,
`scheme://[userinfo@]host[:port]path[?query][#fragment]`, and the host a client computes
from such an address. The grammar is stated on the parts of an address
(`OtamanBridge.Rfc3986.Parts.Valid`), the computation on its text
(`OtamanBridge.Rfc3986.hostOf`), and the two agree:
`OtamanBridge.Rfc3986.Parts.Valid.hostOf`.
-/

namespace OtamanBridge

namespace Rfc3986

open Py

/-! ### Characters -/

/-- ALPHA. -/
def isAlpha (c : ℕ) : Bool := (65 ≤ c && c ≤ 90) || (97 ≤ c && c ≤ 122)

/-- DIGIT. -/
def isDigit (c : ℕ) : Bool := 48 ≤ c && c ≤ 57

/-- HEXDIG, in either case. -/
def isHex (c : ℕ) : Bool := isDigit c || (65 ≤ c && c ≤ 70) || (97 ≤ c && c ≤ 102)

/-- `unreserved`. -/
def unreserved (c : ℕ) : Bool := isAlpha c || isDigit c || c ∈ lit "-._~"

/-- `sub-delims`. -/
def subDelim (c : ℕ) : Bool := c ∈ lit "!$&'()*+,;="

/-- The characters of a `reg-name`. -/
def regChar (c : ℕ) : Bool := unreserved c || subDelim c

/-- The characters of `userinfo`. -/
def userChar (c : ℕ) : Bool := regChar c || c ∈ lit ":"

/-- The characters of `path-abempty`. -/
def pathChar (c : ℕ) : Bool := regChar c || c ∈ lit ":@/"

/-- The characters of `query` and `fragment`. -/
def queryChar (c : ℕ) : Bool := pathChar c || c ∈ lit "?"

/-- A run of characters of a class and of percent-encoded octets. -/
def encoded (cls : ℕ → Bool) : Text → Bool
  | [] => true
  | 37 :: a :: b :: t => isHex a && isHex b && encoded cls t
  | c :: t => c ≠ 37 && cls c && encoded cls t

theorem mem_encoded {cls : ℕ → Bool} {t : Text} (h : encoded cls t) {c : ℕ} (hc : c ∈ t) :
    cls c ∨ c = 37 ∨ isHex c := by
  induction t using encoded.induct with
  | case1 => exact absurd hc (by simp)
  | case2 a b t ih =>
    rw [encoded, Bool.and_eq_true, Bool.and_eq_true] at h
    obtain ⟨⟨ha, hb⟩, ht⟩ := h
    rcases List.mem_cons.mp hc with rfl | hc
    · exact .inr (.inl rfl)
    rcases List.mem_cons.mp hc with rfl | hc
    · exact .inr (.inr ha)
    rcases List.mem_cons.mp hc with rfl | hc
    · exact .inr (.inr hb)
    · exact ih ht hc
  | case3 x t hne ih =>
    rw [encoded.eq_3 _ _ _ hne, Bool.and_eq_true, Bool.and_eq_true] at h
    obtain ⟨⟨-, hx⟩, ht⟩ := h
    rcases List.mem_cons.mp hc with rfl | hc
    · exact .inl hx
    · exact ih ht hc

/-- Where a run of a class has none of these characters in it. -/
theorem not_mem_of_encoded {cls : ℕ → Bool} {t stops : Text} (h : encoded cls t)
    (hstops : ∀ c ∈ stops, cls c = false ∧ c ≠ 37 ∧ isHex c = false) :
    ∀ c ∈ t, c ∉ stops := by
  intro c hc hs
  obtain ⟨hcls, hpercent, hhex⟩ := hstops c hs
  rcases mem_encoded h hc with h | h | h
  · simp [h] at hcls
  · exact hpercent h
  · simp [h] at hhex

/-! ### Hosts -/

/-- `h16`. -/
def IsH16 (t : Text) : Prop := t ≠ [] ∧ t.length ≤ 4 ∧ ∀ c ∈ t, isHex c

/-- `IPv4address`. -/
def IsIPv4 (t : Text) : Prop :=
  ∃ a b c d, a < 256 ∧ b < 256 ∧ c < 256 ∧ d < 256 ∧
    t = (lit ".").intercalate [decimal a, decimal b, decimal c, decimal d]

/-- Groups of an `IPv6address`, which make up this many pieces of 16 bits. -/
def AreGroups (groups : List Text) (pieces : ℕ) : Prop :=
  (pieces = groups.length ∧ ∀ t ∈ groups, IsH16 t) ∨
    ∃ init last, groups = init ++ [last] ∧ pieces = init.length + 2 ∧
      (∀ t ∈ init, IsH16 t) ∧ IsIPv4 last

/-- `IPv6address`: eight pieces, or fewer around a double colon. -/
def IsIPv6 (t : Text) : Prop :=
  (∃ groups, t = (lit ":").intercalate groups ∧ AreGroups groups 8) ∨
    ∃ before after pieces, t = (lit ":").intercalate before ++ lit "::" ++
      (lit ":").intercalate after ∧ (∀ t ∈ before, IsH16 t) ∧ AreGroups after pieces ∧
      before.length + pieces ≤ 7

/-- `IPvFuture`. -/
def IsIPvFuture (t : Text) : Prop :=
  ∃ v version address, v ∈ lit "vV" ∧ t = v :: version ++ lit "." ++ address ∧
    version ≠ [] ∧ (∀ c ∈ version, isHex c) ∧ address ≠ [] ∧
    ∀ c ∈ address, regChar c ∨ c ∈ lit ":"

/-- `IP-literal`. -/
def IsIPLiteral (t : Text) : Prop :=
  ∃ address, t = lit "[" ++ address ++ lit "]" ∧ (IsIPv6 address ∨ IsIPvFuture address)

/-- `host`. An `IPv4address` is a `reg-name` too. -/
def IsHost (t : Text) : Prop := IsIPLiteral t ∨ encoded regChar t

theorem userChar_of_isHex {c : ℕ} (h : isHex c) : userChar c := by
  have h' : isAlpha c ∨ isDigit c := by
    simp only [isHex, isDigit, isAlpha, Bool.or_eq_true, Bool.and_eq_true,
      decide_eq_true_eq] at h ⊢
    omega
  rcases h' with h' | h' <;> simp [userChar, regChar, unreserved, h']

theorem userChar_of_isIPv4 {t : Text} (h : IsIPv4 t) {c : ℕ} (hc : c ∈ t) : userChar c := by
  have hdigit : ∀ n, c ∈ decimal n → userChar c := by
    intro n hn
    have := mem_decimal hn
    refine userChar_of_isHex ?_
    simp only [isHex, isDigit, Bool.or_eq_true, Bool.and_eq_true, decide_eq_true_eq]
    omega
  obtain ⟨n₁, n₂, n₃, n₄, -, -, -, -, rfl⟩ := h
  rcases mem_intercalate hc with hdot | ⟨l, hl, hc⟩
  · exact (by decide : ∀ c ∈ lit ".", userChar c) c hdot
  · simp only [List.mem_cons, List.not_mem_nil, or_false] at hl
    rcases hl with rfl | rfl | rfl | rfl <;> exact hdigit _ hc

/-- An address of a literal is made of the characters of `userinfo`. -/
theorem userChar_of_isIPv6 {t : Text} (h : IsIPv6 t) {c : ℕ} (hc : c ∈ t) : userChar c := by
  have hcolon : c ∈ lit ":" → userChar c := (by decide : ∀ c ∈ lit ":", userChar c) c
  have hgroups : ∀ {groups : List Text}, (∀ g ∈ groups, ∀ c ∈ g, userChar c) →
      c ∈ (lit ":").intercalate groups → userChar c := by
    intro groups hg hc
    rcases mem_intercalate hc with hsep | ⟨l, hl, hc⟩
    · exact hcolon hsep
    · exact hg l hl c hc
  have hare : ∀ {groups pieces}, AreGroups groups pieces → ∀ g ∈ groups, ∀ c ∈ g, userChar c := by
    rintro groups pieces (⟨-, hg⟩ | ⟨init, last, rfl, -, hinit, hlast⟩) g hmem c hc
    · exact userChar_of_isHex ((hg g hmem).2.2 c hc)
    · rcases List.mem_append.mp hmem with hmem | hmem
      · exact userChar_of_isHex ((hinit g hmem).2.2 c hc)
      · rw [List.mem_singleton.mp hmem] at hc
        exact userChar_of_isIPv4 hlast hc
  rcases h with ⟨groups, rfl, hg⟩ | ⟨before, after, pieces, rfl, hbefore, hafter, -⟩
  · exact hgroups (hare hg) hc
  · rcases List.mem_append.mp hc with hc | hc
    · rcases List.mem_append.mp hc with hc | hc
      · exact hgroups (fun g hg c hc => userChar_of_isHex ((hbefore g hg).2.2 c hc)) hc
      · exact (by decide : ∀ c ∈ lit "::", userChar c) c hc
    · exact hgroups (hare hafter) hc

theorem userChar_of_isIPvFuture {t : Text} (h : IsIPvFuture t) {c : ℕ} (hc : c ∈ t) :
    userChar c := by
  obtain ⟨v, version, address, hv, rfl, -, hversion, -, haddress⟩ := h
  rcases List.mem_append.mp hc with hc | hc
  · rcases List.mem_append.mp hc with hc | hc
    · rcases List.mem_cons.mp hc with rfl | hc
      · exact (by decide : ∀ c ∈ lit "vV", userChar c) c hv
      · exact userChar_of_isHex (hversion c hc)
    · exact (by decide : ∀ c ∈ lit ".", userChar c) c hc
  · rcases haddress c hc with h | h
    · simp [userChar, h]
    · exact (by decide : ∀ c ∈ lit ":", userChar c) c h

/-- An IP literal is a text in brackets. -/
theorem IsIPLiteral.exists_eq {t : Text} (h : IsIPLiteral t) :
    ∃ address, t = 91 :: (address ++ [93]) ∧ ∀ c ∈ address, userChar c := by
  obtain ⟨address, rfl, h | h⟩ := h
  · exact ⟨address, rfl, fun c => userChar_of_isIPv6 h⟩
  · exact ⟨address, rfl, fun c => userChar_of_isIPvFuture h⟩

/-! ### Addresses -/

/-- The parts of an address. -/
structure Parts where
  scheme : Text
  userinfo : Option Text
  host : Text
  port : Option Text
  path : Text
  query : Option Text
  fragment : Option Text

namespace Parts

variable (p : Parts)

/-- `host[:port]`. -/
def hostPort : Text := p.host ++ p.port.elim [] (lit ":" ++ ·)

/-- `authority`. -/
def authority : Text := p.userinfo.elim [] (· ++ lit "@") ++ p.hostPort

/-- What comes after the authority. -/
def rest : Text := p.path ++ p.query.elim [] (lit "?" ++ ·) ++ p.fragment.elim [] (lit "#" ++ ·)

/-- The address. -/
def text : Text := p.scheme ++ lit "://" ++ p.authority ++ p.rest

/-- **The grammar of an address with an authority.** -/
structure Valid : Prop where
  scheme : p.scheme.head?.any isAlpha ∧
    ∀ c ∈ p.scheme, isAlpha c ∨ isDigit c ∨ c ∈ lit "+-."
  userinfo : ∀ t ∈ p.userinfo, encoded userChar t
  host : IsHost p.host
  port : ∀ t ∈ p.port, ∀ c ∈ t, isDigit c
  path : encoded pathChar p.path ∧ (p.path = [] ∨ p.path.head? = some '/'.toNat)
  query : ∀ t ∈ p.query, encoded queryChar t
  fragment : ∀ t ∈ p.fragment, encoded queryChar t

end Parts

/-! ### The host of an address -/

/-- Where an authority ends. -/
def endsAuthority (c : ℕ) : Bool := c ∈ lit "/?#"

/-- The authority of an address: what stands after `scheme://`, up to the first
character that ends it. -/
def authorityOf (t : Text) : Text :=
  ((t.dropWhile (· ≠ 58)).drop 3).takeWhile fun c => !endsAuthority c

/-- An authority without the user information. -/
def withoutUserinfo (authority : Text) : Text :=
  if 64 ∈ authority then (authority.dropWhile (· ≠ 64)).drop 1 else authority

/-- An authority without the user information and the port. -/
def hostOfAuthority (authority : Text) : Text :=
  let t := withoutUserinfo authority
  if t.head? = some 91 then t.takeWhile (· ≠ 93) ++ [93] else t.takeWhile (· ≠ 58)

/-- **The host of an address**, as a client computes it. -/
def hostOf (t : Text) : Text := hostOfAuthority (authorityOf t)

namespace Parts.Valid

variable {p : Parts}

theorem colon_not_mem_scheme (h : p.Valid) : ∀ c ∈ p.scheme, c ≠ 58 := by
  rintro c hc rfl
  exact absurd (h.scheme.2 58 hc) (by decide)

theorem userinfo_not_mem (h : p.Valid) {t : Text} (ht : p.userinfo = some t) :
    ∀ c ∈ t, c ∉ lit "/?#@[]" :=
  not_mem_of_encoded (h.userinfo t ht) (by decide)

theorem host_cases (h : p.Valid) :
    (∃ address, p.host = 91 :: (address ++ [93]) ∧ ∀ c ∈ address, c ∉ lit "/?#@[]") ∨
    ∀ c ∈ p.host, c ∉ lit ":/?#@[]" := by
  rcases h.host with hlit | hreg
  · obtain ⟨address, heq, hchars⟩ := hlit.exists_eq
    refine .inl ⟨address, heq, fun c hc hstop => ?_⟩
    have : ∀ c ∈ lit "/?#@[]", userChar c = false := by decide
    simpa [this c hstop] using hchars c hc
  · exact .inr (not_mem_of_encoded hreg (by decide))

theorem hostPort_not_mem (h : p.Valid) : ∀ c ∈ p.hostPort, c ∉ lit "/?#@" := by
  intro c hc hstop
  rcases List.mem_append.mp hc with hc | hc
  · rcases h.host_cases with ⟨address, heq, hchars⟩ | hchars
    · rw [heq, List.mem_cons, List.mem_append, List.mem_singleton] at hc
      rcases hc with rfl | hc | rfl
      · exact absurd hstop (by decide)
      · exact hchars c hc ((by decide : ∀ c ∈ lit "/?#@", c ∈ lit "/?#@[]") c hstop)
      · exact absurd hstop (by decide)
    · exact hchars c hc ((by decide : ∀ c ∈ lit "/?#@", c ∈ lit ":/?#@[]") c hstop)
  · rcases hp : p.port with _ | t
    · simp [hp] at hc
    · rw [hp, Option.elim_some, List.mem_append] at hc
      rcases hc with hc | hc
      · exact (by decide : ∀ c ∈ lit ":", c ∉ lit "/?#@") c hc hstop
      · have hdigit := h.port t hp c hc
        have : ∀ c ∈ lit "/?#@", isDigit c = false := by decide
        simp [this c hstop] at hdigit

theorem authority_not_mem (h : p.Valid) : ∀ c ∈ p.authority, endsAuthority c = false := by
  intro c hc
  simp only [endsAuthority, decide_eq_false_iff_not]
  intro hstop
  rcases List.mem_append.mp hc with hc | hc
  · rcases hu : p.userinfo with _ | t
    · simp [hu] at hc
    · rw [hu, Option.elim_some, List.mem_append] at hc
      rcases hc with hc | hc
      · exact h.userinfo_not_mem hu c hc ((by decide : ∀ c ∈ lit "/?#", c ∈ lit "/?#@[]") c hstop)
      · exact (by decide : ∀ c ∈ lit "@", c ∉ lit "/?#") c hc hstop
  · exact h.hostPort_not_mem c hc ((by decide : ∀ c ∈ lit "/?#", c ∈ lit "/?#@") c hstop)

/-- What comes after the authority begins with a character that ends it. -/
theorem rest_cases (h : p.Valid) :
    p.rest = [] ∨ ∃ c t, p.rest = c :: t ∧ endsAuthority c ∧ (c = 47 ↔ p.path ≠ []) := by
  unfold Parts.rest
  rcases h.path.2 with hpath | hpath
  · rw [hpath]
    rcases p.query with _ | q
    · rcases p.fragment with _ | f
      · exact .inl rfl
      · exact .inr ⟨35, f, rfl, by decide, by decide⟩
    · exact .inr ⟨63, _, rfl, by decide, by decide⟩
  · obtain ⟨t, ht⟩ : ∃ t, p.path = 47 :: t := by
      rcases hp : p.path with _ | ⟨c, t⟩
      · simp [hp] at hpath
      · rw [hp] at hpath
        exact ⟨t, by rw [Option.some.inj hpath]; rfl⟩
    rw [ht]
    exact .inr ⟨47, _, rfl, by decide, by simp⟩

theorem authorityOf_text (h : p.Valid) : authorityOf p.text = p.authority := by
  have hscheme : ∀ c ∈ p.scheme, decide (c ≠ 58) = true := fun c hc =>
    decide_eq_true (h.colon_not_mem_scheme c hc)
  have htext : p.text = p.scheme ++ (58 :: 47 :: 47 :: (p.authority ++ p.rest)) := by
    simp only [Parts.text, List.append_assoc]
    rfl
  have hauth : ∀ c ∈ p.authority, (!endsAuthority c) = true := fun c hc => by
    rw [h.authority_not_mem c hc]
    rfl
  rw [authorityOf, htext, List.dropWhile_append_of_pos hscheme,
    List.dropWhile_cons_of_neg (by simp)]
  simp only [List.drop_succ_cons, List.drop_zero]
  rw [List.takeWhile_append_of_pos hauth]
  rcases h.rest_cases with hrest | ⟨c, t, hrest, hc, -⟩
  · rw [hrest, List.takeWhile_nil, List.append_nil]
  · rw [hrest, List.takeWhile_cons_of_neg (by simp [hc]), List.append_nil]

theorem at_mem_authority_iff (h : p.Valid) : 64 ∈ p.authority ↔ p.userinfo ≠ none := by
  have hno : 64 ∉ p.hostPort := fun hmem => h.hostPort_not_mem 64 hmem (by decide)
  have hat : 64 ∈ lit "@" := by decide
  unfold Parts.authority
  rcases p.userinfo with _ | t
  · simp [hno]
  · simp [hat]

theorem withoutUserinfo_authority (h : p.Valid) : withoutUserinfo p.authority = p.hostPort := by
  unfold withoutUserinfo
  rcases hu : p.userinfo with _ | t
  · rw [if_neg (by simp [h.at_mem_authority_iff, hu])]
    simp [Parts.authority, hu]
  · rw [if_pos (by simp [h.at_mem_authority_iff, hu])]
    have huser : ∀ c ∈ t, decide (c ≠ 64) = true := by
      intro c hc
      refine decide_eq_true ?_
      rintro rfl
      exact h.userinfo_not_mem hu 64 hc (by decide)
    have hauth : p.authority = t ++ (64 :: p.hostPort) := by
      simp only [Parts.authority, hu, Option.elim_some, List.append_assoc]
      rfl
    rw [hauth, List.dropWhile_append_of_pos huser, List.dropWhile_cons_of_neg (by simp)]
    rfl

/-- **The host a client computes is the host of the grammar.** -/
theorem hostOf_text (h : p.Valid) : hostOf p.text = p.host := by
  simp only [hostOf, h.authorityOf_text, hostOfAuthority, h.withoutUserinfo_authority]
  unfold Parts.hostPort
  rcases h.host_cases with ⟨address, heq, hchars⟩ | hchars
  · have haddress : ∀ c ∈ 91 :: address, decide (c ≠ 93) = true := by
      intro c hc
      refine decide_eq_true ?_
      rintro rfl
      rcases List.mem_cons.mp hc with hc | hc
      · exact absurd hc (by decide)
      · exact hchars 93 hc (by decide)
    rw [heq, List.cons_append, List.head?_cons, if_pos rfl, List.append_assoc,
      ← List.cons_append, List.takeWhile_append_of_pos haddress, List.singleton_append,
      List.takeWhile_cons_of_neg (by simp)]
    simp
  · have hcolon : ∀ c ∈ p.host, decide (c ≠ 58) = true := by
      intro c hc
      refine decide_eq_true ?_
      rintro rfl
      exact hchars 58 hc (by decide)
    rw [if_neg, List.takeWhile_append_of_pos hcolon]
    · rcases p.port with _ | t
      · simp
      · rw [Option.elim_some, List.takeWhile_append]
        simp [lit]
    · rcases hhost : p.host with _ | ⟨c, t⟩
      · rcases p.port with _ | t
        · simp
        · simp [lit]
      · rw [List.cons_append, List.head?_cons, Option.some.injEq]
        rintro rfl
        exact hchars 91 (by simp [hhost]) (by decide)

end Parts.Valid

end Rfc3986

end OtamanBridge
