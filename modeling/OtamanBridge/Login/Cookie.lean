import OtamanBridge.Lib.Expiry
import OtamanBridge.Login.Bound

/-!
# Whom the session cookie recognises

The session cookie is all that tells one browser from another. What a browser sends is read by
`SessionCookie.parse` (`OtamanBridge.Login.parseCookie_header`), and the id it holds is looked
up in the `SessionStore`, where sessions come by a login, go by a logout, and lapse: an expired
session stays in the store until it is asked for, or until the store is swept by a
`purge_expired` that may have read the clock long ago. In every run of the web login, with its
calls interleaved in any way and a clock that may go back, the provider recognises exactly the
session that stands under the id of the cookie and has not expired
(`OtamanBridge.Login.cookieSession_eq_some_iff`).
-/

namespace OtamanBridge

namespace Login

open Py

open Expiry (Effect Stands)

open Http (AuthStack Headers Session Sessions parseCookie)

/-! ### What a browser sends -/

/-- A text without white space at its ends, and without semicolons. -/
def Bare (t : Text) : Prop := strip t = t ∧ ';'.toNat ∉ t

instance (t : Text) : Decidable (Bare t) := inferInstanceAs (Decidable (_ ∧ _))

/-- A cookie, as a browser keeps it. -/
structure BrowserCookie where
  name : Text
  value : Text
  bare_name : Bare name
  bare_value : Bare value
  name_ne : '='.toNat ∉ name

namespace BrowserCookie

/-- The cookie in the header. -/
def pair (c : BrowserCookie) : Text := c.name ++ '='.toNat :: c.value

/-- The header of the request. -/
def header (cookies : List BrowserCookie) : Text := (lit "; ").intercalate (cookies.map pair)

/-- The value of the first cookie with this name that has one. -/
def presented (name : Text) (cookies : List BrowserCookie) : Option Text :=
  (cookies.find? fun c => c.name = name ∧ c.value ≠ []).map value

theorem semicolon_notMem_pair (c : BrowserCookie) : ';'.toNat ∉ c.pair := by
  rw [pair, List.mem_append, List.mem_cons, not_or, not_or]
  exact ⟨c.bare_name.2, by decide, c.bare_value.2⟩

/-- At either end of the pair there is a visible character: one of the name or the value, or
the equals sign. -/
theorem strip_pair (c : BrowserCookie) : strip c.pair = c.pair := by
  have hequals : isSpace '='.toNat = false := by decide
  refine strip_eq_self ?_ ?_
  · rw [pair]
    rcases hn : c.name with _ | ⟨d, name⟩
    · simpa using hequals
    · have hhead := (isSpace_ends_of_strip c.bare_name.1).1
      rw [hn] at hhead
      simpa using hhead
  · rw [pair, List.getLast?_append_cons]
    rcases hv : c.value.eq_nil_or_concat with hnil | ⟨value, d, hlast⟩
    · rw [hnil]
      simpa using hequals
    · have hend := (isSpace_ends_of_strip c.bare_value.1).2
      rw [hlast, List.concat_eq_append] at hend ⊢
      rw [← List.cons_append, List.getLast?_concat]
      simpa using hend

theorem cut_pair (c : BrowserCookie) : cut (lit "=") c.pair = some (c.name, c.value) := by
  have hself : cut (lit "=") ('='.toNat :: c.value) = some ([], c.value) := cut_self c.value
  rw [pair, show lit "=" = ['='.toNat] from rfl, cut_append c.name_ne,
    show ['='.toNat] = lit "=" from rfl, hself]
  simp

end BrowserCookie

open BrowserCookie (pair header presented)

/-- What `parse` makes of one part of the header. -/
def parsePart (name part : Text) : Option Text :=
  match cut (lit "=") (strip part) with
  | none => none
  | some (k, v) => if strip k = name ∧ strip v ≠ [] then some (strip v) else none

theorem parseCookie_eq (name t : Text) :
    parseCookie name t = (t.splitOn ';'.toNat).findSome? (parsePart name) := rfl

theorem parsePart_pair (name : Text) (c : BrowserCookie) :
    parsePart name c.pair = if c.name = name ∧ c.value ≠ [] then some c.value else none := by
  simp only [parsePart, c.strip_pair, c.cut_pair, c.bare_name.1, c.bare_value.1]

/-- The space after a semicolon does not matter. -/
theorem parsePart_space (name t : Text) : parsePart name (' '.toNat :: t) = parsePart name t := by
  rw [parsePart, strip_space_cons (by decide), ← parsePart]

/-- The parts of the header. -/
theorem splitOn_header (c : BrowserCookie) (cs : List BrowserCookie) :
    (header (c :: cs)).splitOn ';'.toNat = c.pair :: cs.map fun c => ' '.toNat :: c.pair := by
  have hjoin : ∀ (cs : List BrowserCookie) (c : BrowserCookie), header (c :: cs) =
      [';'.toNat].intercalate (c.pair :: cs.map fun c => ' '.toNat :: c.pair) := by
    intro cs
    induction cs with
    | nil => exact fun c => rfl
    | cons d cs ih =>
      intro c
      have hih := ih d
      rw [header, List.map_cons, List.map_cons, List.intercalate_cons_cons, ← List.map_cons,
        ← header, hih, List.map_cons, List.intercalate_cons_cons]
      rcases cs with _ | ⟨e, cs⟩
      · simp [lit]
      · simp [lit]
  rw [hjoin, List.splitOn_intercalate _ _ (List.cons_ne_nil _ _)]
  intro l hl
  rcases List.mem_cons.mp hl with rfl | hl
  · exact c.semicolon_notMem_pair
  · obtain ⟨d, -, rfl⟩ := List.mem_map.mp hl
    rw [List.mem_cons, not_or]
    exact ⟨by decide, d.semicolon_notMem_pair⟩

/-- **What is read of a browser's header**: the value of the first cookie with the name. -/
theorem parseCookie_header (name : Text) (cookies : List BrowserCookie) :
    parseCookie name (header cookies) = presented name cookies := by
  have hparts : ∀ cs : List BrowserCookie,
      (cs.map pair).findSome? (parsePart name) = presented name cs := by
    intro cs
    induction cs with
    | nil => rfl
    | cons c cs ih =>
      rw [List.map_cons, List.findSome?_cons, parsePart_pair, presented, List.find?_cons]
      by_cases hc : c.name = name ∧ c.value ≠ []
      · simp [hc]
      · rw [if_neg hc]
        simp only [hc, decide_false]
        rw [ih, presented]
  rcases cookies with _ | ⟨c, cs⟩
  · rfl
  · have hspace : (parsePart name ∘ fun c : BrowserCookie => ' '.toNat :: c.pair) =
        parsePart name ∘ pair := funext fun c => parsePart_space name c.pair
    rw [parseCookie_eq, splitOn_header, List.findSome?_cons, List.findSome?_map, hspace,
      ← hparts (c :: cs), List.map_cons, List.findSome?_cons, List.findSome?_map]

/-! ### What the store holds -/

section Store

variable {C : Type} [DecidableEq C] {site : Site} {s s' : State C} {l : Label C} {sid : Text}
  {session : Session}

/-- What a step does to the session with this id. -/
def effect (sid : Text) (s : State C) : Label C → Effect Session Seconds
  | .insert c =>
    match s.calls c with
    | some (.inserting _ k session) => if k = sid then .write session else .none
    | _ => .none
  | .sweep c =>
    match s.calls c with
    | some (.purging .sessions now) => .look now
    | _ => .none
  | .get k => if k = sid then .look s.now else .none
  | .delete k => if k = sid then .drop else .none
  | _ => .none

theorem lookup_get (hsid : sid ≠ []) (now : Seconds) (sessions : Sessions) (k : Text) :
    (sessions.get now k).1.lookup sid = (if k = sid then Effect.look now else .none).apply
      Session.expiresAt (sessions.lookup sid) := by
  unfold Http.Sessions.get
  rcases eq_or_ne k sid with rfl | hne
  · rw [if_neg hsid, if_pos rfl, Effect.apply]
    rcases hv : sessions.lookup k with _ | session
    · exact hv
    · by_cases hexpired : session.expiresAt ≤ now
      · simp [hexpired, Option.filter_some]
      · simp [hexpired, hv, Option.filter_some]
  · rw [if_neg hne, Effect.apply]
    split_ifs
    · rfl
    · rcases sessions.lookup k with _ | session
      · rfl
      · by_cases hexpired : session.expiresAt ≤ now
        · simp only [hexpired, if_true]
          exact AList.lookup_erase_ne hne.symm
        · simp [hexpired]

theorem lookup_delete (hsid : sid ≠ []) (sessions : Sessions) (k : Text) :
    (deleteSession sessions k).lookup sid = (if k = sid then Effect.drop else .none).apply
      Session.expiresAt (sessions.lookup sid) := by
  unfold deleteSession
  rcases eq_or_ne k sid with rfl | hne
  · rw [if_neg hsid, if_pos rfl, AList.lookup_erase]
    rfl
  · rw [if_neg hne, Effect.apply]
    split_ifs
    · rfl
    · exact AList.lookup_erase_ne hne.symm

/-- **Every step has its effect** on the session with an id. -/
theorem Step.lookup_session (h : Step site s l s') (hsid : sid ≠ []) :
    s'.sessions.lookup sid =
      (effect sid s l).apply Session.expiresAt (s.sessions.lookup sid) := by
  cases h with
  | @insert c state k session hat =>
    simp only [effect, hat]
    rcases eq_or_ne k sid with rfl | hne
    · rw [if_pos rfl]
      exact AList.lookup_insert _
    · rw [if_neg hne]
      exact AList.lookup_insert_ne hne.symm
  | sweepPending hat =>
    simp only [effect, hat]
    rfl
  | sweepSessions hat =>
    simp only [effect, hat]
    exact Dict.lookup_keep
  | get k => exact lookup_get hsid s.now s.sessions k
  | delete k => exact lookup_delete hsid s.sessions k
  | tick _ | start _ | put _ | complete _ | miss _ | take _ _ _ | send _ | sendFails _
  | answer _ _ | replyFails _ | validate _ _ | validateFails _ | create _ _ | purge _ _ => rfl

/-- What the provider finds for a cookie is in the store, and has not expired. -/
theorem get_snd_eq_some_iff (hsid : sid ≠ []) {now : Seconds} {sessions : Sessions} :
    (sessions.get now sid).2 = some session ↔
      sessions.lookup sid = some session ∧ now < session.expiresAt := by
  unfold Http.Sessions.get
  rw [if_neg hsid]
  rcases hv : sessions.lookup sid with _ | v
  · simp
  · by_cases hexpired : v.expiresAt ≤ now
    · simp only [hexpired, if_true, Option.some.injEq]
      constructor
      · intro h
        exact absurd h (by simp)
      · rintro ⟨rfl, hlive⟩
        exact absurd hexpired (not_le_of_gt hlive)
    · simp only [hexpired, if_false, Option.some.injEq]
      constructor
      · rintro rfl
        exact ⟨rfl, lt_of_not_ge hexpired⟩
      · exact fun h => h.1

variable {now : Seconds} {ls : List (Label C)}

/-- **Whom the cookie recognises.** In every run of the web login, a browser is recognised as a
session exactly if the session stands under the id that its cookie presents and has not
expired: a login of the run put it there, and since then no other login had this id, nobody
logged out of it, and whoever asked for it or swept the store had read the clock before it
expired. -/
theorem cookieSession_eq_some_iff
    (hrun : Lts.Run (Lts.ofStep (step site)) (State.init now) ls s) (a : AuthStack)
    (cookies : List BrowserCookie) (headers : Headers)
    (hcookies : headers.get "Cookie" = header cookies) (session : Session) :
    ({ a with sessions := s.sessions }.cookieSession s.now headers).2 = some session ↔
      ∃ name ∈ a.cookie, ∃ sid, presented name cookies = some sid ∧
        s.now < session.expiresAt ∧
          Stands Session.expiresAt (Lts.ofStep (step site)) (effect sid) (State.init now) ls s
            session := by
  unfold AuthStack.cookieSession
  rw [hcookies]
  rcases hname : a.cookie with _ | name
  · simp
  simp only [Option.bind_some, Option.mem_def, Option.some.injEq, exists_eq_left',
    parseCookie_header]
  rcases hsid : presented name cookies with _ | sid
  · simp
  have hne : sid ≠ [] := by
    rw [← parseCookie_header] at hsid
    exact AuthStack.parseCookie_ne_nil hsid
  have hstands : s.sessions.lookup sid = some session ↔ Stands Session.expiresAt
      (Lts.ofStep (step site)) (effect sid) (State.init now) ls s session :=
    Expiry.find_eq_some_iff rfl (fun _ _ _ hl => (Step.of_step hl).lookup_session hne) hrun
  simp only [Option.some.injEq, exists_eq_left', get_snd_eq_some_iff hne, hstands, and_comm]

end Store

/-- A browser with two cookies, the second of which it got when it logged in. -/
def browsing : List BrowserCookie :=
  [{ name := lit "theme", value := lit "a=b", bare_name := by decide, bare_value := by decide,
     name_ne := by decide },
   { name := lit "sid", value := lit "sid", bare_name := by decide, bare_value := by decide,
     name_ne := by decide }]

/-- A provider that reads the second one. -/
def plainStack : AuthStack where
  token := []
  token_ascii := by decide
  ee := true
  validator := none
  cookie := some (lit "sid")
  sessions := ∅

/-- Whom it takes the browser for. -/
def browsingAs (s : State ℕ) : Option Session :=
  ({ plainStack with sessions := s.sessions }.cookieSession s.now
    [(lit "Cookie", header browsing)]).2

/-- A session of the login stands. -/
theorem cookieSession_eq_some_iff_browsing : ∃ (s : State ℕ) (session : Session),
    session.userId = lit "ada" ∧ browsingAs s = some session ∧
      Stands Session.expiresAt (Lts.ofStep (step plainSite)) (effect (lit "sid")) (State.init 0)
        loggingIn s session := by
  obtain ⟨s, hrun, hs⟩ := Lts.exists_run_of_exec (step plainSite) (State.init 0) loggingIn
    (fun s => (browsingAs s).map Session.userId = some (lit "ada")) (by decide +kernel)
  obtain ⟨session, hsession, huser⟩ := Option.map_eq_some_iff.mp (of_decide_eq_true hs)
  obtain ⟨name, hname, sid, hsid, -, hstands⟩ := (cookieSession_eq_some_iff hrun plainStack
    browsing [(lit "Cookie", header browsing)] (by decide +kernel) session).mp hsession
  obtain rfl : lit "sid" = name := by simpa [plainStack] using hname
  obtain rfl : lit "sid" = sid := by
    have hpresented : presented (lit "sid") browsing = some (lit "sid") := by decide +kernel
    exact Option.some.inj (hpresented.symm.trans hsid)
  exact ⟨s, session, huser, hsession, hstands⟩

end Login

end OtamanBridge
