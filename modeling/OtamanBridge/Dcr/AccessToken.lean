import Mathlib.Tactic.Linarith
import OtamanBridge.Core
import OtamanBridge.Lib.PyText
import OtamanBridge.Lib.Run

/-!
# The cached management token

`ZitadelMgmtClient._get_access_token` of `dcr_shim.py`, called one time after the other under
its lock, with whatever the token endpoint answers. A token is kept until 30 seconds before
it expires; but one that claims to live for less than a minute is taken to live for a whole
one. So the cache serves no token too late just when the tokens claim a minute or more
(`OtamanBridge.Dcr.AccessToken.served_iff`).

That a token is the one that was minted at a time, with a claim, and what was served from the
cache, is history.
-/

namespace OtamanBridge

namespace Dcr

namespace AccessToken

open Py

/-! ### The client -/

/-- How the client signs in: `pat`, or `client_id` and `client_secret`. -/
structure Credentials where
  pat : Text
  clientId : Text
  clientSecret : Text

/-- The client mints its tokens. -/
def Credentials.Mints (c : Credentials) : Prop :=
  c.pat = [] ∧ c.clientId ≠ [] ∧ c.clientSecret ≠ []

instance (c : Credentials) : Decidable c.Mints := inferInstanceAs (Decidable (_ ∧ _))

/-- What the token endpoint answers, as far as it is read: an object with an
`access_token`. -/
structure TokenReply where
  accessToken : Value
  expiresIn : Option Value

/-- The cache: `_access_token` and `_token_expires_at`. -/
structure Cache where
  accessToken : Value
  expiresAt : Seconds

/-- Why a call raises. -/
inductive Failure
  /-- `ZitadelMgmtError`: neither way to sign in is set up. -/
  | noAuth
  /-- What `_fetch_client_credentials_token` raises. -/
  | fetch
  /-- What `int` raises. -/
  | int
  deriving DecidableEq

/-- `_TOKEN_REFRESH_LEEWAY`. -/
def tokenRefreshLeeway : Seconds := 30

section

variable (int : Value → Option ℤ)

/-- The time the token claims to live: `int(tok.get("expires_in", 3600))`, if `int` does not
raise. -/
def TokenReply.claim (tok : TokenReply) : Option ℤ :=
  match tok.expiresIn with
  | none => some 3600
  | some v => int v

/-- The cache has a token that is not due. -/
def Cache.serves (cache : Cache) (n : Seconds) : Prop :=
  cache.accessToken.truthy ∧ n < cache.expiresAt - tokenRefreshLeeway

instance (cache : Cache) (n : Seconds) : Decidable (cache.serves n) :=
  inferInstanceAs (Decidable (_ ∧ _))

/-- A token is minted at the time `n`, where the request is answered like this. -/
def mint (cache : Cache) (n : Seconds) : Option TokenReply → Cache × Except Failure Value
  | none => (cache, .error .fetch)
  | some tok =>
    match tok.claim int with
    | none => ({ cache with accessToken := tok.accessToken }, .error .int)
    | some expiresIn =>
      ({ accessToken := tok.accessToken, expiresAt := n + max 60 expiresIn },
        .ok tok.accessToken)

/-- `_get_access_token` at the time `n`, where a request would be answered like this. -/
def getAccessToken (c : Credentials) (cache : Cache) (n : Seconds) (reply : Option TokenReply) :
    Cache × Except Failure Value :=
  if c.pat ≠ [] then (cache, .ok (.str c.pat))
  else if c.clientId = [] ∨ c.clientSecret = [] then (cache, .error .noAuth)
  else if cache.serves n then (cache, .ok cache.accessToken)
  else mint int cache n reply

end

/-! ### Runs -/

/-- When the token in the cache was minted, and the time it claims to live. -/
structure Mint where
  time : Seconds
  claim : Option ℤ
  deriving DecidableEq

/-- A token that was served from the cache. -/
structure Served where
  time : Seconds
  mint : Mint
  deriving DecidableEq

/-- The client between two calls. -/
structure State where
  cache : Cache
  /-- When it was last called. -/
  last : Seconds
  mint : Mint
  log : List Served

/-- A new client. The clock counts up from zero. -/
def State.init : State := ⟨⟨.none, 0⟩, 0, ⟨0, none⟩, []⟩

/-- A call, and what the token endpoint would answer. -/
structure Call where
  time : Seconds
  reply : Option TokenReply

variable {int : Value → Option ℤ} {c : Credentials} {s s' : State} {l : Call}

/-- One call, not before the last one. -/
def step (int : Value → Option ℤ) (c : Credentials) (s : State) (l : Call) : Option State :=
  if l.time < s.last then none
  else
    let cache := (getAccessToken int c s.cache l.time l.reply).1
    if c.Mints then
      if s.cache.serves l.time then
        some { s with cache := cache, last := l.time, log := ⟨l.time, s.mint⟩ :: s.log }
      else
        some { s with
          cache := cache
          last := l.time
          mint := l.reply.elim s.mint fun tok => ⟨l.time, tok.claim int⟩ }
    else some { s with cache := cache, last := l.time }

/-! ### What a call does -/

theorem getAccessToken_of_not_mints (h : ¬c.Mints) (cache : Cache) (n : Seconds)
    (reply : Option TokenReply) : (getAccessToken int c cache n reply).1 = cache := by
  unfold getAccessToken
  split_ifs with hpat hauth
  · rfl
  · rfl
  · push Not at hauth
    exact absurd ⟨not_not.mp hpat, hauth⟩ h
  · push Not at hauth
    exact absurd ⟨not_not.mp hpat, hauth⟩ h

/-- **What `_get_access_token` does** for a client that mints: it serves, or it mints. -/
theorem getAccessToken_eq (h : c.Mints) (cache : Cache) (n : Seconds) (reply : Option TokenReply) :
    getAccessToken int c cache n reply =
      if cache.serves n then (cache, .ok cache.accessToken) else mint int cache n reply := by
  obtain ⟨hpat, hid, hsecret⟩ := h
  rw [getAccessToken, if_neg (not_not.mpr hpat), if_neg (by simp [hid, hsecret])]

/-- The calls, by what they do. -/
inductive Step (int : Value → Option ℤ) (c : Credentials) (s : State) (l : Call) : State → Prop
  | other (hmints : ¬c.Mints) : Step int c s l { s with last := l.time }
  | serve (hmints : c.Mints) (hserves : s.cache.serves l.time) :
      Step int c s l { s with last := l.time, log := ⟨l.time, s.mint⟩ :: s.log }
  | fetch (hmints : c.Mints) (hserves : ¬s.cache.serves l.time) (hreply : l.reply = none) :
      Step int c s l { s with last := l.time }
  | malformed {tok : TokenReply} (hmints : c.Mints) (hserves : ¬s.cache.serves l.time)
      (hreply : l.reply = some tok) (hclaim : tok.claim int = none) :
      Step int c s l { s with
        cache := { s.cache with accessToken := tok.accessToken }
        last := l.time
        mint := ⟨l.time, none⟩ }
  | mint {tok : TokenReply} {expiresIn : ℤ} (hmints : c.Mints)
      (hserves : ¬s.cache.serves l.time) (hreply : l.reply = some tok)
      (hclaim : tok.claim int = some expiresIn) :
      Step int c s l { s with
        cache := ⟨tok.accessToken, l.time + max 60 expiresIn⟩
        last := l.time
        mint := ⟨l.time, some expiresIn⟩ }

theorem Step.of_step (h : step int c s l = some s') : s.last ≤ l.time ∧ Step int c s l s' := by
  unfold AccessToken.step at h
  split at h
  · exact absurd h (by simp)
  next htime =>
    refine ⟨not_lt.mp htime, ?_⟩
    dsimp only at h
    split_ifs at h with hmints hserves
    · rw [getAccessToken_eq hmints, if_pos hserves] at h
      obtain rfl := Option.some.inj h
      exact .serve hmints hserves
    · rw [getAccessToken_eq hmints, if_neg hserves] at h
      rcases hreply : l.reply with _ | tok
      · rw [hreply] at h
        obtain rfl := Option.some.inj h
        exact .fetch hmints hserves hreply
      · rw [hreply] at h
        simp only [AccessToken.mint, Option.elim_some] at h
        rcases hclaim : tok.claim int with _ | expiresIn
        · rw [hclaim] at h
          obtain rfl := Option.some.inj h
          exact .malformed hmints hserves hreply hclaim
        · rw [hclaim] at h
          obtain rfl := Option.some.inj h
          exact .mint hmints hserves hreply hclaim
    · rw [getAccessToken_of_not_mints hmints] at h
      obtain rfl := Option.some.inj h
      exact .other hmints

/-! ### When it is sound -/

/-- The token was served in time: with the leeway before the end of the life it claimed. -/
def Served.InTime (x : Served) : Prop :=
  ∃ expiresIn, x.mint.claim = some expiresIn ∧ x.time < x.mint.time + expiresIn ∧
    tokenRefreshLeeway ≤ x.mint.time + expiresIn - x.time

/-- **No token is served too late.** -/
def Sound (s : State) : Prop := ∀ x ∈ s.log, x.InTime

/-- The replies are of this kind, where there are any. -/
def Replies (kind : TokenReply → Prop) (_s : State) (l : Call) : Prop :=
  ∀ tok ∈ l.reply, kind tok

/-- A token that is worth caching claims to live for a minute, if it claims a number; and
where such a token may come with a claim that is no number, none that is empty comes with one
that is. -/
structure Careful (int : Value → Option ℤ) (kind : TokenReply → Prop) : Prop where
  long : ∀ tok, kind tok → tok.accessToken.truthy → ∀ expiresIn, tok.claim int = some expiresIn →
    60 ≤ expiresIn
  plain : ∀ tok tok', kind tok → kind tok' → tok.accessToken.truthy → tok.claim int = none →
    ¬tok'.accessToken.truthy → tok'.claim int = none

/-- What is known of the cache. A token that it may still serve was minted for the time until
it expires; and where there is none, the time of expiry is past, or was that of an empty
token. -/
structure Inv (int : Value → Option ℤ) (kind : TokenReply → Prop) (s : State) : Prop where
  sound : Sound s
  token : s.cache.accessToken.truthy → s.last < s.cache.expiresAt - tokenRefreshLeeway →
    ∃ expiresIn, s.mint.claim = some expiresIn ∧
      s.cache.expiresAt = s.mint.time + expiresIn
  empty : ¬s.cache.accessToken.truthy → s.last < s.cache.expiresAt - tokenRefreshLeeway →
    ∃ tok, kind tok ∧ ¬tok.accessToken.truthy ∧ tok.claim int ≠ none

variable {kind : TokenReply → Prop}

theorem inv_init : Inv int kind State.init := by
  refine ⟨fun _ h => absurd h List.not_mem_nil,
    fun h => absurd h (by simp [State.init, Value.truthy]), fun _ h => ?_⟩
  exact absurd h (by norm_num [State.init, tokenRefreshLeeway])

/-- A token that is served was minted for that long. -/
theorem Inv.served (h : Inv int kind s) {n : Seconds} (hlast : s.last ≤ n)
    (hserves : s.cache.serves n) : Served.InTime ⟨n, s.mint⟩ := by
  obtain ⟨htruthy, hlt⟩ := hserves
  obtain ⟨expiresIn, hclaim, hexpires⟩ := h.token htruthy (hlast.trans_lt hlt)
  have hexp : n < s.mint.time + expiresIn - 30 := hexpires ▸ hlt
  have hleeway : (30 : Seconds) ≤ s.mint.time + expiresIn - n := by linarith
  exact ⟨expiresIn, hclaim, by linarith, hleeway⟩

/-- **What a call keeps**, while the replies are careful. -/
theorem Inv.step (h : Inv int kind s) (hcareful : Careful int kind) (hreply : Replies kind s l)
    (hlast : s.last ≤ l.time) (hl : Step int c s l s') : Inv int kind s' := by
  cases hl with
  | other hmints | fetch hmints hserves hnone =>
    exact ⟨h.sound, fun htruthy hlt => h.token htruthy (hlast.trans_lt hlt),
      fun hempty hlt => h.empty hempty (hlast.trans_lt hlt)⟩
  | serve hmints hserves =>
    exact ⟨List.forall_mem_cons.mpr ⟨h.served hlast hserves, h.sound⟩,
      fun htruthy hlt => h.token htruthy (hlast.trans_lt hlt),
      fun hempty hlt => h.empty hempty (hlast.trans_lt hlt)⟩
  | @malformed tok hmints hserves htok hclaim =>
    -- the time of expiry is not that of this token
    have hold : l.time < s.cache.expiresAt - tokenRefreshLeeway →
        ∃ tok, kind tok ∧ ¬tok.accessToken.truthy ∧ tok.claim int ≠ none := by
      intro hlt
      exact h.empty (fun htruthy => hserves ⟨htruthy, hlt⟩) (hlast.trans_lt hlt)
    refine ⟨h.sound, fun htruthy hlt => ?_, fun _ => hold⟩
    obtain ⟨tok', hkind', hempty', hclaim'⟩ := hold hlt
    exact absurd (hcareful.plain tok tok' (hreply tok htok) hkind' htruthy hclaim hempty') hclaim'
  | @mint tok expiresIn hmints hserves htok hclaim =>
    refine ⟨h.sound, fun htruthy _ => ⟨expiresIn, rfl, ?_⟩, fun hempty _ =>
      ⟨tok, hreply tok htok, hempty, by rw [hclaim]; simp⟩⟩
    have hlong := hcareful.long tok (hreply tok htok) htruthy expiresIn hclaim
    show l.time + _ = l.time + _
    rw [max_eq_right hlong]

/-! ### The replies that would make it serve a token too late -/

/-- The steps while the replies are of this kind. -/
abbrev StepOf (int : Value → Option ℤ) (c : Credentials) (kind : TokenReply → Prop) :
    State → Call → State → Prop :=
  Lts.Under (Replies kind) (Lts.ofStep (step int c))

/-- A call that mints a token. -/
theorem StepOf.mint (int : Value → Option ℤ) (kind : TokenReply → Prop) (hmints : c.Mints)
    {tok : TokenReply} (htok : kind tok) {n : Seconds} (hlast : s.last ≤ n)
    (hserves : ¬s.cache.serves n) :
    StepOf int c kind s ⟨n, some tok⟩ { s with
      cache := (mint int s.cache n (some tok)).1
      last := n
      mint := ⟨n, tok.claim int⟩ } := by
  refine ⟨?_, ?_⟩
  · rintro tok' ⟨⟩
    exact htok
  · simp [Lts.ofStep, step, not_lt.mpr hlast, hmints, hserves, getAccessToken_eq hmints]

/-- A call that is served. -/
theorem StepOf.serve (int : Value → Option ℤ) (kind : TokenReply → Prop) (hmints : c.Mints)
    {n : Seconds} (hlast : s.last ≤ n) (hserves : s.cache.serves n) :
    StepOf int c kind s ⟨n, none⟩ { s with last := n, log := ⟨n, s.mint⟩ :: s.log } :=
  ⟨by rintro tok ⟨⟩, by
    simp [Lts.ofStep, step, not_lt.mpr hlast, hmints, hserves, getAccessToken_eq hmints]⟩

theorem not_serves_of_empty {n : Seconds} (h : ¬s.cache.accessToken.truthy) :
    ¬s.cache.serves n := fun hserves => h hserves.1

/-- A token that claims less than a minute is served in the last second of its half minute. -/
theorem exists_late_of_short (kind : TokenReply → Prop) (hmints : c.Mints) {tok : TokenReply}
    (htok : kind tok) (htruthy : tok.accessToken.truthy) {expiresIn : ℤ}
    (hclaim : tok.claim int = some expiresIn) (hshort : expiresIn < 60) :
    ∃ ls s, Lts.Run (StepOf int c kind) State.init ls s ∧ ¬Sound s := by
  have hfirst := StepOf.mint (s := State.init) int kind hmints htok (n := 0) le_rfl
    (not_serves_of_empty (by simp [State.init, Value.truthy]))
  have hcache : (AccessToken.mint int State.init.cache 0 (some tok)).1 =
      ⟨tok.accessToken, 60⟩ := by
    simp [AccessToken.mint, hclaim, max_eq_left hshort.le]
  rw [hcache, hclaim] at hfirst
  have hsecond := StepOf.serve int kind hmints (n := 59 / 2)
    (s := { State.init with
      cache := ⟨tok.accessToken, 60⟩, last := 0, mint := ⟨0, some expiresIn⟩ })
    (by norm_num) ⟨htruthy, by norm_num [tokenRefreshLeeway]⟩
  refine ⟨_, _, (Lts.Run.nil.snoc hfirst).snoc hsecond, fun hsound => ?_⟩
  obtain ⟨e, he, -, hleeway⟩ := hsound _ List.mem_cons_self
  obtain rfl := Option.some.inj he
  have hle : (expiresIn : ℚ) ≤ 59 := by exact_mod_cast Int.le_of_lt_add_one hshort
  simp only [tokenRefreshLeeway] at hleeway
  linarith

/-- A token whose claim is no number is served for as long as an empty one before it
claimed. -/
theorem exists_late_of_malformed (hmints : c.Mints) {tok tok' : TokenReply} (htok : kind tok)
    (htok' : kind tok') (htruthy : tok.accessToken.truthy) (hclaim : tok.claim int = none)
    (hempty : ¬tok'.accessToken.truthy) (hclaim' : tok'.claim int ≠ none) :
    ∃ ls s, Lts.Run (StepOf int c kind) State.init ls s ∧ ¬Sound s := by
  obtain ⟨expiresIn, hexpires⟩ := Option.ne_none_iff_exists'.mp hclaim'
  have hfirst := StepOf.mint (s := State.init) int kind hmints htok' (n := 0) le_rfl
    (not_serves_of_empty (by simp [State.init, Value.truthy]))
  have hcache : (AccessToken.mint int State.init.cache 0 (some tok')).1 =
      ⟨tok'.accessToken, max 60 expiresIn⟩ := by
    simp [AccessToken.mint, hexpires]
  rw [hcache] at hfirst
  have hsecond := StepOf.mint int kind hmints htok (n := 0)
    (s := { State.init with
      cache := ⟨tok'.accessToken, max 60 expiresIn⟩, last := 0, mint := ⟨0, tok'.claim int⟩ })
    le_rfl (not_serves_of_empty hempty)
  have hcache' : (AccessToken.mint int ⟨tok'.accessToken, max 60 expiresIn⟩ 0 (some tok)).1 =
      ⟨tok.accessToken, max 60 expiresIn⟩ := by
    simp [AccessToken.mint, hclaim]
  rw [hcache', hclaim] at hsecond
  have hmax : (60 : ℚ) ≤ max 60 (expiresIn : ℚ) := le_max_left ..
  have hthird := StepOf.serve int kind hmints (n := 0)
    (s := { State.init with
      cache := ⟨tok.accessToken, max 60 expiresIn⟩, last := 0, mint := ⟨0, none⟩ })
    le_rfl ⟨htruthy, by simp only [tokenRefreshLeeway]; linarith⟩
  refine ⟨_, _, ((Lts.Run.nil.snoc hfirst).snoc hsecond).snoc hthird, fun hsound => ?_⟩
  obtain ⟨e, he, -⟩ := hsound _ List.mem_cons_self
  exact absurd he (by simp)

/-- **When no token is served too late.** The tokens that are served from the cache have
the leeway left of the life they claimed, in every run with replies of a kind, just when the
replies of that kind are careful. -/
theorem served_iff (hmints : c.Mints) :
    (∀ ls s, Lts.Run (Lts.Under (Replies kind) (Lts.ofStep (step int c))) State.init ls s →
      Sound s) ↔ Careful int kind := by
  constructor
  · intro h
    constructor
    · intro tok htok htruthy expiresIn hclaim
      by_contra hshort
      obtain ⟨ls, s, hrun, hnot⟩ :=
        exists_late_of_short kind hmints htok htruthy hclaim (not_le.mp hshort)
      exact hnot (h ls s hrun)
    · intro tok tok' htok htok' htruthy hclaim hempty
      by_contra hclaim'
      obtain ⟨ls, s, hrun, hnot⟩ :=
        exists_late_of_malformed hmints htok htok' htruthy hclaim hempty hclaim'
      exact hnot (h ls s hrun)
  · intro hcareful ls s hrun
    have hI : Inv int kind s := by
      refine hrun.inv_state (I := fun s => Inv int kind s) inv_init fun a l b hI hl => ?_
      obtain ⟨hlast, hstep⟩ := Step.of_step hl.2
      exact hI.step hcareful hl.1 hlast hstep
    exact hI.sound

/-! ### Two runs -/

/-- `int` of what is an integer already. -/
def plainInt : Value → Option ℤ
  | .int n => some n
  | _ => none

/-- A client with an id and a secret. -/
def plainClient : Credentials := ⟨[], [1], [2]⟩

/-- A token that claims so many seconds. -/
def lasting (expiresIn : ℤ) : TokenReply := ⟨.str [3], some (.int expiresIn)⟩

/-- A token of an hour that is served at the end of its time. -/
theorem served_iff_hour : ∃ s : State, s.log = [⟨3569, ⟨0, some 3600⟩⟩] ∧ Sound s := by
  have hcareful : Careful plainInt (· = lasting 3600) := by
    constructor
    · rintro tok rfl htruthy expiresIn hclaim
      obtain rfl := Option.some.inj hclaim
      decide
    · rintro tok tok' rfl rfl htruthy hclaim
      exact absurd hclaim (by simp [TokenReply.claim, lasting, plainInt])
  have hmints : plainClient.Mints := by decide
  have hfirst := StepOf.mint (s := State.init) plainInt (· = lasting 3600)
    hmints rfl (n := 0) le_rfl (not_serves_of_empty (by simp [State.init, Value.truthy]))
  have hcache : (mint plainInt State.init.cache 0 (some (lasting 3600))).1 =
      ⟨.str [3], 3600⟩ := by
    norm_num [mint, TokenReply.claim, lasting, plainInt]
  rw [hcache] at hfirst
  have hsecond := StepOf.serve plainInt (· = lasting 3600) hmints (n := 3569)
    (s := { State.init with
      cache := ⟨.str [3], 3600⟩, last := 0, mint := ⟨0, some 3600⟩ })
    (by norm_num) ⟨rfl, by norm_num [tokenRefreshLeeway]⟩
  exact ⟨_, rfl, (served_iff hmints).mpr hcareful _ _ ((Lts.Run.nil.snoc hfirst).snoc hsecond)⟩

/-- **A token of ten seconds** is served twenty seconds after it expired. -/
theorem not_served : ¬∀ (int : Value → Option ℤ) (c : Credentials) (ls : List Call) (s : State),
    c.Mints → Lts.Run (Lts.ofStep (step int c)) State.init ls s → Sound s := by
  intro h
  have hclaim : (lasting 10).claim plainInt = some 10 := rfl
  obtain ⟨ls, s, hrun, hnot⟩ := exists_late_of_short (fun _ => True) (c := plainClient)
    (by decide) trivial rfl hclaim (by decide)
  exact hnot (h plainInt plainClient ls s (by decide) hrun.of_under)

end AccessToken

end Dcr

end OtamanBridge
