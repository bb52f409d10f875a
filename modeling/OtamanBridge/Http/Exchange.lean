import OtamanBridge.Http.Connection
import OtamanBridge.Lib.PyDigits

/-!
# A request gets one response

Whatever the request and whatever the methods of the daemon do, a request whose handler returns
gets one response and nothing else: the body is read once at most, then one head is sent, with
`Connection: close`, and then the bytes it announces. Where the handler raises nothing was sent,
and nothing will be. To a `POST` the response comes after the body, if one is announced, so that a
client which still sends is not cut off.

There is one exception to what a head announces. The landing page counts characters, not bytes, so
the length is right exactly if what the session says of its user is ASCII: else it is too small;
and where the page cannot be encoded, the head is all there is
(`OtamanBridge.Http.Wire.exchange`).
-/

namespace OtamanBridge

namespace Http

namespace Wire

open Py

variable {δ : Type} {d : Daemon δ} {r : Request}

/-! ### What has been done on a connection -/

/-- What a condition says of a connection. -/
def on (P : List Act → Bool → Prop) (c : Conn δ) : Prop := P c.acts c.consumed

/-- Nothing has been done. -/
def Start (acts : List Act) (consumed : Bool) : Prop := acts = [] ∧ consumed = false

/-- Nothing has been sent, and the body was read once at most. -/
def Unanswered (acts : List Act) : Prop := acts = [] ∨ ∃ n, acts = [.read n]

/-- The body was read, or it could not be read, or there is none. -/
def Drained (d : Daemon δ) (r : Request) (acts : List Act) : Prop :=
  (∃ n, acts = [.read n]) ∨ acts = [] ∧ ∃ n, contentLength d r = some n ∧ n ≤ 0

/-- The body can still be drained, or this was done. -/
def Open (d : Daemon δ) (r : Request) (acts : List Act) (consumed : Bool) : Prop :=
  Start acts consumed ∨ consumed = true ∧ Drained d r acts

/-- What is sent after a head. -/
inductive Sent : List Act → List ℕ → Prop
  | nothing : Sent [] []
  | bytes (b : List ℕ) : Sent [.body b] b

/-- The lengths that a head announces. -/
def announced (headers : List (String × Text)) : List Text :=
  (headers.filter fun kv => kv.1 = "Content-Length").map Prod.snd

/-- **One response was sent**: what was done before it is `B`, the connection is closed after
it, and the head announces what comes. -/
def Answered (B : List Act → Prop) (acts : List Act) : Prop :=
  ∃ before status headers rest bytes, acts = before ++ .head status headers :: rest ∧
    B before ∧ Sent rest bytes ∧ closes ∈ headers ∧ announced headers = [decimal bytes.length]

theorem Drained.unanswered {acts : List Act} (h : Drained d r acts) : Unanswered acts :=
  h.symm.imp_left And.left

theorem Open.unanswered {acts : List Act} {consumed : Bool} (h : Open d r acts consumed) :
    Unanswered acts := by
  rcases h with h | h
  · exact .inl h.1
  · exact h.2.unanswered

theorem Answered.mono {B B' : List Act → Prop} {acts : List Act} (h : Answered B acts)
    (hB : ∀ acts, B acts → B' acts) : Answered B' acts := by
  obtain ⟨before, status, headers, rest, bytes, heq, hbefore, hrest⟩ := h
  exact ⟨before, status, headers, rest, bytes, heq, hB _ hbefore, hrest⟩

/-! ### The parts of a handler -/

section Parts

variable {P : List Act → Bool → Prop} {B : List Act → Prop}

/-- A method of the daemon does nothing on the connection. -/
theorem triple_call {α : Type} (m : Method δ α) :
    Triple (on P) (call m) (fun _ => on P) (fun _ => on P) := by
  intro c hc
  rw [call]
  split
  · next heq =>
    split at heq
    · cases heq
      exact hc
    · cases heq
  · next heq =>
    split at heq
    · cases heq
    · cases heq
      exact hc

theorem triple_length (d : Daemon δ) (r : Request) :
    Triple (on P) (length d r) (fun n => on fun acts consumed =>
      P acts consumed ∧ contentLength d r = some n) (fun e => on fun acts consumed =>
        e = .other ∧ P acts consumed) := by
  rw [length]
  split
  next n hn => exact .pure fun _ hc => ⟨hc, hn⟩
  · exact .throw fun _ hc => ⟨rfl, hc⟩

/-- The body is read where nothing has been done. -/
theorem triple_readRaw (r : Request) (n : ℤ) :
    Triple (on fun acts _ => acts = []) (readRaw (δ := δ) r n)
      (fun _ => on fun acts _ => acts = [.read n])
      (fun _ => on fun acts _ => acts = [.read n]) := by
  refine .bind (Q := fun _ => on fun acts _ => acts = [.read n])
    (.modify fun c hc => ?_) fun _ => ?_
  · show c.acts ++ [.read n] = [.read n]
    rw [show c.acts = [] from hc]
    rfl
  · split
    · exact .pure fun _ hc => hc
    · exact .throw fun _ hc => hc

/-- What holds when a handler raises: nothing was sent, and after an `OSError` the body needs
no more reading. -/
def Failed (d : Daemon δ) (r : Request) (e : Fault) (acts : List Act) : Prop :=
  Unanswered acts ∧ (e = .os → Drained d r acts)

theorem triple_consume {B : List Act → Prop} {E : Fault → Conn δ → Prop} :
    Triple (on fun acts _ => B acts) (consume (δ := δ))
      (fun _ => on fun acts consumed => consumed = true ∧ B acts) E :=
  .modify fun _ hc => ⟨rfl, hc⟩

theorem triple_drainBody : Triple (on (Open d r)) (drainBody d r)
    (fun _ => on fun acts _ => Drained d r acts) (fun e => on fun acts _ => Failed d r e acts) := by
  refine .bind .get fun c => .ite (fun hc => .pure ?_) fun hc => ?_
  · rintro s ⟨rfl, hs | hs⟩
    · exact absurd (hc.symm.trans hs.2) (by simp)
    · exact hs.2
  · -- nothing has been done yet
    have hstart : ∀ s : Conn δ, c = s ∧ on (Open d r) s → on Start s := by
      rintro s ⟨rfl, hs | hs⟩
      · exact hs
      · exact absurd hs.1 hc
    refine .weaken ?_ hstart
    refine .bind ((triple_length d r).conseq (fun _ h => h) (fun _ _ h => h) ?_) fun n => ?_
    · rintro e s ⟨rfl, hs⟩
      exact ⟨.inl hs.1, nofun⟩
    · refine .ite (fun hn => ?_) fun hn => ?_
      · refine .bind (((triple_readRaw r n).weaken fun s hs => hs.1.1).conseq (fun _ h => h)
          (fun _ _ h => h) fun e s hs => ?_) fun _ => ?_
        · exact ⟨.inr ⟨n, hs⟩, fun _ => .inl ⟨n, hs⟩⟩
        · exact (triple_consume (B := Drained d r)).conseq (fun s hs => Or.inl ⟨n, hs⟩)
            (fun _ _ hs => hs.2) fun _ _ h => h
      · exact (triple_consume (B := Drained d r)).conseq
          (fun s hs => Or.inr ⟨hs.1.1, n, hs.2, by omega⟩) (fun _ _ hs => hs.2) fun _ _ h => h

theorem triple_drainQuietly : Triple (on (Open d r)) (drainQuietly d r)
    (fun _ => on fun acts _ => Drained d r acts) (fun _ => on fun acts _ => Unanswered acts) := by
  intro c hc
  have h := triple_drainBody c hc
  rw [drainQuietly]
  rcases hout : drainBody d r c with ⟨a, c'⟩ | ⟨e, c'⟩
  · rw [hout] at h
    exact h
  · rw [hout] at h
    cases e with
    | os => exact h.2 rfl
    | other => exact h.1

/-- The body is read. -/
theorem triple_readBody : Triple (on Start) (readBody d r)
    (fun _ => on fun acts consumed => consumed = true ∧ Drained d r acts)
    (fun _ => on fun acts _ => Unanswered acts) := by
  refine .bind ((triple_length d r).conseq (fun _ h => h) (fun _ _ h => h)
    fun e s hs => Or.inl hs.2.1) fun n => .ite (fun hn => ?_) fun hn => ?_
  · exact .bind ((triple_consume (B := Drained d r)).conseq
      (fun s hs => Or.inr ⟨hs.1.1, n, hs.2, hn.le⟩) (fun _ _ h => h) fun _ _ h => h)
        fun _ => .pure fun _ h => h
  · refine .bind (((triple_readRaw r n).weaken fun s hs => hs.1.1).conseq (fun _ h => h)
      (fun _ _ h => h) fun e s hs => Or.inr ⟨n, hs⟩) fun bytes => ?_
    refine .bind ((triple_consume (B := Drained d r)).conseq (fun s hs => Or.inl ⟨n, hs⟩)
      (fun _ _ h => h) fun _ _ h => h) fun _ => ?_
    rw [parseBody]
    split
    · exact .pure fun _ h => h
    · exact .throw fun _ h => h.2.unanswered
    · exact .pure fun _ h => h

/-! ### Replies -/

variable {B : List Act → Prop}

theorem triple_act {a : Act} {E : Fault → Conn δ → Prop} :
    Triple (on fun acts _ => B acts) (act (δ := δ) a)
      (fun _ => on fun acts _ => ∃ before, acts = before ++ [a] ∧ B before) E :=
  .modify fun c hc => ⟨c.acts, rfl, hc⟩

/-- A head and the bytes that it announces. -/
theorem triple_respond {status : ℕ} {headers : List (String × Text)} {bytes : List ℕ}
    {E : Fault → Conn δ → Prop} (hcloses : closes ∈ headers)
    (hlength : announced headers = [decimal bytes.length]) :
    Triple (on fun acts _ => B acts)
      (do act (δ := δ) (.head status headers); act (.body bytes))
      (fun _ => on fun acts _ => Answered B acts) E := by
  refine .bind triple_act fun _ => triple_act.conseq (fun _ h => h) ?_ fun _ _ h => h
  rintro - s ⟨acts, hacts, before, rfl, hB⟩
  refine ⟨before, status, headers, [.body bytes], bytes, ?_, hB, .bytes bytes, hcloses, hlength⟩
  rw [hacts, List.append_assoc]
  rfl

/-- A head that announces nothing. -/
theorem triple_redirect {location : Text} {cookie : List Text} {E : Fault → Conn δ → Prop} :
    Triple (on fun acts _ => B acts) (redirect (δ := δ) location cookie)
      (fun _ => on fun acts _ => Answered B acts) E := by
  refine triple_act.conseq (fun _ h => h) ?_ fun _ _ h => h
  rintro - s ⟨before, hacts, hB⟩
  refine ⟨before, 302, _, [], [], hacts, hB, .nothing, ?_, ?_⟩
  · simp [redirectHeaders]
  · simp [announced, redirectHeaders, announces, closes, List.filter_map]

theorem triple_dump (v : Value) : Triple (on fun acts _ => B acts) (dump d v)
    (fun _ => on fun acts _ => B acts) (fun _ => on fun acts _ => B acts) :=
  .ite (fun _ => .pure fun _ h => h) fun _ => .throw fun _ h => h

theorem announced_jsonHeaders (payload : List ℕ) :
    announced (jsonHeaders payload) = [decimal payload.length] := by
  simp [announced, jsonHeaders, announces, closes]

theorem triple_replyJson (status : ℕ) (v : Value) :
    Triple (on fun acts _ => B acts) (replyJson d status v)
      (fun _ => on fun acts _ => Answered B acts) (fun _ => on fun acts _ => B acts) :=
  .bind (triple_dump v) fun payload =>
    triple_respond (by simp [jsonHeaders]) (announced_jsonHeaders payload)

theorem triple_replyError (status : ℕ) (message : Text) :
    Triple (on (Open d r)) (replyError d r status message)
      (fun _ => on fun acts _ => Answered (Drained d r) acts)
      (fun _ => on fun acts _ => Unanswered acts) :=
  .bind triple_drainQuietly fun _ =>
    (triple_replyJson status _).conseq (fun _ h => h) (fun _ _ h => h)
      fun _ _ h => h.unanswered

theorem triple_replyUnauthenticated (error description : Text) :
    Triple (on (Open d r)) (replyUnauthenticated d r error description)
      (fun _ => on fun acts _ => Answered (Drained d r) acts)
      (fun _ => on fun acts _ => Unanswered acts) := by
  refine .bind triple_drainQuietly fun _ => ?_
  refine .conseq (.bind (triple_dump _) fun payload => .bind (triple_call _) fun challenge =>
    triple_respond ?_ ?_) (fun _ h => h) (fun _ _ h => h) fun _ _ h => h.unanswered
  · simp [jsonHeaders]
  · rw [announced, List.filter_append, List.map_append]
    have hnone : (challenge.toList.map fun t => (("WWW-Authenticate", t) : String × Text)).filter
        (fun kv => kv.1 = "Content-Length") = [] := by
      rcases challenge with _ | t <;> rfl
    rw [hnone, List.map_nil, List.append_nil]
    exact announced_jsonHeaders payload

end Parts

/-! ### `POST` -/

/-- A handler that answers a `POST`. -/
def Serves (d : Daemon δ) (r : Request) (x : Handler δ Unit) : Prop :=
  Triple (on Start) x (fun _ => on fun acts _ => Answered (Drained d r) acts)
    (fun _ => on fun acts _ => Unanswered acts)

theorem serves_replyError (status : ℕ) (message : Text) :
    Serves d r (replyError d r status message) :=
  (triple_replyError status message).weaken fun _ h => Or.inl h

theorem serves_replyUnauthenticated (error description : Text) :
    Serves d r (replyUnauthenticated d r error description) :=
  (triple_replyUnauthenticated error description).weaken fun _ h => Or.inl h

/-- What is replied once the body is read. -/
theorem triple_reply (status : ℕ) (v : Value) :
    Triple (on fun acts consumed => consumed = true ∧ Drained d r acts) (replyJson d status v)
      (fun _ => on fun acts _ => Answered (Drained d r) acts)
      (fun _ => on fun acts _ => Unanswered acts) :=
  (triple_replyJson (B := Drained d r) status v).conseq (fun _ h => h.2) (fun _ _ h => h)
    fun _ _ h => h.unanswered

/-- And where a method makes the reply. -/
theorem triple_replyOf (m : Method δ (ℕ × Value)) :
    Triple (on fun acts consumed => consumed = true ∧ Drained d r acts)
      (call m >>= fun out => replyJson d out.1 out.2)
      (fun _ => on fun acts _ => Answered (Drained d r) acts)
      (fun _ => on fun acts _ => Unanswered acts) :=
  .bind ((triple_call m).conseq (fun _ h => h) (fun _ _ h => h) fun _ _ h => h.2.unanswered)
    fun out => triple_reply out.1 out.2

theorem serves_call {α : Type} (m : Method δ α) {f : α → Handler δ Unit}
    (hf : ∀ a, Serves d r (f a)) : Serves d r (call m >>= f) :=
  .bind ((triple_call m).conseq (fun _ h => h) (fun _ _ h => h) fun _ _ h => Or.inl h.1) hf

theorem serves_withBody (handle : Value → Method δ (ℕ × Value)) :
    Serves d r (withBody d r handle) := by
  refine .bind triple_readBody fun body => ?_
  rcases body with _ | body
  · exact (triple_replyError 400 _).weaken fun _ h => Or.inr h
  · exact triple_replyOf (handle body)

theorem serves_postMcp : Serves d r (postMcp d r) := by
  refine serves_call _ fun ctx => ?_
  rcases ctx with _ | ctx
  · exact serves_replyUnauthenticated _ _
  · refine .bind triple_readBody fun body => ?_
    rcases body with _ | body
    · exact triple_reply 200 _
    · dsimp only
      split
      · exact .throw fun _ h => h.2.unanswered
      · exact (triple_replyUnauthenticated _ _).weaken fun _ h => Or.inr h
      · exact .bind ((triple_call _).conseq (fun _ h => h) (fun _ _ h => h)
          fun _ _ h => h.2.unanswered) fun response => triple_reply 200 response

theorem serves_postLogout : Serves d r (postLogout d r) := by
  rw [postLogout]
  split
  · exact serves_replyError 503 _
  next cookie _ =>
    refine .bind (triple_drainBody.conseq (fun _ h => Or.inl h) (fun _ _ h => h)
      fun _ _ h => h.1) fun _ => ?_
    split
    · exact triple_redirect
    · exact .bind (.modify fun _ h => h) fun _ => triple_redirect

theorem serves_postControl (handle : Value → Method δ (ℕ × Value)) :
    Serves d r (postControl d r handle) := by
  refine serves_call _ fun ctx => ?_
  rcases ctx with _ | ctx
  · exact serves_replyError 401 _
  · exact serves_withBody handle

theorem serves_postPmSync : Serves d r (postPmSync d r) := by
  refine .bind (Q := fun _ => on Start) ?_ fun refused => ?_
  · rw [pmSyncAuth]
    refine .ite (fun _ => .pure fun _ h => h) fun _ => .ite (fun _ => .pure fun _ h => h)
      fun _ => .ite (fun _ => .throw fun _ h => Or.inl h.1) fun _ => .pure fun _ h => h
  · rcases refused with _ | refused
    · exact serves_withBody _
    · exact serves_replyError refused.1 refused.2

theorem serves_postRegister : Serves d r (postRegister d r) := by
  refine .ite (fun _ => serves_replyError 404 _) fun _ => ?_
  refine .bind (Q := fun _ => on Start) ?_ fun ok => ?_
  · rw [admitted]
    exact .ite (fun _ => .bind ((triple_call _).conseq (fun _ h => h) (fun _ _ h => h)
      fun _ _ h => Or.inl h.1) fun _ => .pure fun _ h => h) fun _ => .pure fun _ h => h
  · refine .ite (fun _ => serves_replyUnauthenticated _ _) fun _ => ?_
    refine .bind triple_readBody fun body => ?_
    rcases body with _ | body
    · exact triple_reply 400 _
    · exact triple_replyOf (d.register body)

theorem serves_doPost : Serves d r (doPost d r) := by
  rw [doPost]
  refine .ite (fun _ => serves_postRegister) fun _ => .ite (fun _ => serves_postMcp) fun _ =>
    .ite (fun _ => serves_postLogout) fun _ => .ite (fun _ => serves_postPmSync) fun _ =>
    .ite (fun _ => serves_withBody _) fun _ => .ite (fun _ => serves_withBody _) fun _ =>
    .ite (fun _ => serves_withBody _) fun _ => .ite (fun _ => serves_postControl _) fun _ =>
    .ite (fun _ => serves_postControl _) fun _ => .ite (fun _ => serves_postControl _) fun _ =>
    .ite (fun _ => serves_postControl _) fun _ => serves_replyError 404 _

/-! ### `GET` -/

/-- A handler that answers a `GET`. -/
def Shows (x : Handler δ Unit) : Prop :=
  Triple (on Start) x (fun _ => on fun acts _ => Answered Unanswered acts)
    (fun _ => on fun acts _ => Unanswered acts)

theorem Serves.shows {x : Handler δ Unit} (h : Serves d r x) : Shows x :=
  h.conseq (fun _ h => h) (fun _ _ h => h.mono fun _ => Drained.unanswered) fun _ _ h => h

theorem shows_replyJson (status : ℕ) (v : Value) : Shows (replyJson d status v) :=
  (triple_replyJson (B := Unanswered) status v).weaken fun _ h => Or.inl h.1

theorem shows_call {α : Type} (m : Method δ α) {f : α → Handler δ Unit}
    (hf : ∀ a, Shows (f a)) : Shows (call m >>= f) :=
  .bind ((triple_call m).conseq (fun _ h => h) (fun _ _ h => h) fun _ _ h => Or.inl h.1) hf

theorem shows_redirect (location : Text) (cookie : List Text) :
    Shows (redirect (δ := δ) location cookie) :=
  (triple_redirect (B := Unanswered)).weaken fun _ h => Or.inl h.1

theorem shows_getMetadata (handle : Headers → Method δ Answer) :
    Shows (getMetadata d r handle) := by
  refine shows_call _ fun answer => ?_
  rcases answer with refused | v
  · exact (serves_replyError refused.1 refused.2).shows
  · exact shows_replyJson 200 v

theorem shows_getLogin : Shows (getLogin d r) := by
  rw [getLogin]
  split
  · exact (serves_replyError 503 _).shows
  · exact shows_call _ fun url => shows_redirect url []

theorem shows_getCallback : Shows (getCallback d r) := by
  rw [getCallback]
  split
  · exact (serves_replyError 503 _).shows
  · split
    · exact (serves_replyError 400 _).shows
    · refine .ite (fun _ => (serves_replyError 400 _).shows) fun _ => ?_
      refine .bind (.get) fun c => ?_
      refine .weaken (shows_call _ fun completion => ?_) fun _ h => h.2
      cases completion with
      | incomplete text => exact (serves_replyError 400 _).shows
      | exchange text => exact (serves_replyError 502 _).shows
      | failed text => exact (serves_replyError 502 _).shows
      | session sid sessions =>
        refine .bind (Q := fun _ => on Start) (.modify fun _ h => h) fun _ => ?_
        rw [welcome]
        split
        · exact .throw fun _ h => Or.inl h.1
        · exact shows_redirect _ _

/-! ### The landing page -/

/-- The session that the landing page is about. -/
def shown (d : Daemon δ) (r : Request) (sessions : Sessions) : Option Session :=
  d.cookie.bind fun cookie =>
    (parseCookie cookie.name (r.headers.get "Cookie")).bind fun sid => (sessions.get d.now sid).2

/-- What it says. -/
def rootInner (d : Daemon δ) (r : Request) (sessions : Sessions) : Text :=
  match shown d r sessions with
  | some s => sessionHtml s
  | none => if d.cookie.isNone then unconfiguredHtml else anonymousHtml

/-- All that is said of the user is ASCII. -/
def Plain (s : Session) : Prop :=
  Ascii (emailOf s) ∧ Ascii s.userId ∧ ∀ role ∈ s.roles, Ascii role

theorem triple_getSession (sid : Text) (sessions : Sessions) :
    Triple (fun c : Conn δ => c.sessions = sessions ∧ on Start c) (getSession d sid)
      (fun s c => s = (sessions.get d.now sid).2 ∧ on Start c) (fun _ _ => False) := by
  rintro c ⟨rfl, hc⟩
  exact ⟨rfl, hc⟩

theorem triple_renderRootHtml (sessions : Sessions) :
    Triple (fun c : Conn δ => c.sessions = sessions ∧ on Start c) (renderRootHtml d r)
      (fun html c => html = page (rootInner d r sessions) ∧ on Start c)
      (fun _ _ => False) := by
  have hpure : ∀ inner, rootInner d r sessions = inner →
      Triple (fun c : Conn δ => c.sessions = sessions ∧ on Start c)
        (pure (page inner) : Handler δ Text)
        (fun html c => html = page (rootInner d r sessions) ∧ on Start c) (fun _ _ => False) :=
    fun inner hinner => .pure fun _ hc => ⟨congrArg page hinner.symm, hc.2⟩
  rw [renderRootHtml]
  split
  next hcookie => exact hpure _ (by simp [rootInner, shown, hcookie])
  next cookie hcookie =>
    split
    next hparse => exact hpure _ (by simp [rootInner, shown, hcookie, hparse])
    next sid hparse =>
      have hshown : shown d r sessions = (sessions.get d.now sid).2 := by
        simp [shown, hcookie, hparse]
      refine .bind (triple_getSession sid sessions) fun s => ?_
      rcases s with _ | s
      · exact .pure fun c hc => ⟨by rw [rootInner, hshown, ← hc.1, hcookie]; rfl, hc.2⟩
      · exact .pure fun c hc => ⟨by rw [rootInner, hshown, ← hc.1], hc.2⟩

theorem ascii_append {s t : Text} : Ascii (s ++ t) ↔ Ascii s ∧ Ascii t :=
  List.forall_mem_append

/-- Escaping changes ASCII characters into ASCII, and no others. -/
theorem ascii_escape {t : Text} : Ascii (escape t) ↔ Ascii t := by
  have hchar : ∀ c, Ascii (escapeChar c) ↔ c < 128 := by
    intro c
    by_cases hspecial : c ∈ lit "&<>\"'"
    · have hall : ∀ c ∈ lit "&<>\"'", Ascii (escapeChar c) ∧ c < 128 := by decide
      exact iff_of_true (hall c hspecial).1 (hall c hspecial).2
    · have hlit : lit "&<>\"'" = ['&'.toNat, '<'.toNat, '>'.toNat, '"'.toNat, '\''.toNat] := by
        decide
      rw [hlit] at hspecial
      simp only [List.mem_cons, List.not_mem_nil, or_false, not_or] at hspecial
      obtain ⟨h1, h2, h3, h4, h5⟩ := hspecial
      rw [escapeChar, if_neg h1, if_neg h2, if_neg h3, if_neg h4, if_neg h5]
      exact List.forall_mem_singleton
  constructor
  · intro h c hc
    exact (hchar c).mp fun c' hc' => h c' (List.mem_flatMap.mpr ⟨c, hc, hc'⟩)
  · intro h c hc
    obtain ⟨c', hc', hin⟩ := List.mem_flatMap.mp hc
    exact (hchar c').mpr (h c' hc') c hin

theorem ascii_intercalate {sep : Text} {ts : List Text} (hsep : Ascii sep) :
    Ascii (sep.intercalate ts) ↔ ∀ t ∈ ts, Ascii t := by
  induction ts with
  | nil => exact iff_of_true (List.forall_mem_nil _) (List.forall_mem_nil _)
  | cons t ts ih =>
    rcases eq_or_ne ts [] with rfl | hne
    · simp
    · rw [List.intercalate_cons_of_ne_nil hne, ascii_append, ascii_append, ih,
        List.forall_mem_cons]
      tauto

theorem ascii_sessionHtml {s : Session} : Ascii (sessionHtml s) ↔ Plain s := by
  have hlits : ∀ u ∈ ["<p>Logged in as <strong>", "</strong></p>", "<dl><dt>user_id</dt><dd>",
      "</dd>", "<dt>roles</dt><dd>", "</dd></dl>", "<form method=\"post\" action=\"/auth/logout\">",
      "<button type=\"submit\">Log out</button></form>", "(none)", ", "], Ascii (lit u) := by
    decide +kernel
  simp only [List.forall_mem_cons] at hlits
  obtain ⟨h1, h2, h3, h4, h5, h6, h7, h8, hnone, hsep, -⟩ := hlits
  have hroles : Ascii (if s.roles = [] then lit "(none)" else (lit ", ").intercalate s.roles) ↔
      ∀ role ∈ s.roles, Ascii role := by
    split_ifs with hnil
    · rw [hnil]
      exact iff_of_true hnone (List.forall_mem_nil _)
    · exact ascii_intercalate hsep
  simp only [sessionHtml, ascii_append, ascii_escape, hroles, h1, h2, h3, h4, h5, h6, h7, h8,
    true_and, and_true, Plain, and_assoc]

/-- The page around it is ASCII, and so is what it says without a session. -/
theorem ascii_page {inner : Text} : Ascii (page inner) ↔ Ascii inner := by
  have hlits : ∀ u ∈ ["<!DOCTYPE html><html><head>", "<meta charset=\"utf-8\">",
      "<title>otaman bridge</title>", "</head><body>", "<h1>otaman bridge</h1>",
      "</body></html>"], Ascii (lit u) := by
    decide +kernel
  simp only [List.forall_mem_cons] at hlits
  obtain ⟨h1, h2, h3, h4, h5, h6, -⟩ := hlits
  simp only [page, ascii_append, h1, h2, h3, h4, h5, h6, true_and, and_true]

theorem ascii_anonymousHtml : Ascii anonymousHtml ∧ Ascii unconfiguredHtml := by
  have hlits : ∀ u ∈ ["<p>Not logged in.</p>",
      "<p><a href=\"/auth/login\">Log in with Zitadel</a></p>",
      "<p>Web login flow is not configured ", "(loopback bearer only).</p>",
      "<p>Set OTAMAN_AUTH_MODE, OIDC_ISSUER, ", "OIDC_BRIDGE_WEB_CLIENT_ID, ",
      "OIDC_BRIDGE_REDIRECT_URI ", "and restart the daemon.</p>"], Ascii (lit u) := by
    decide +kernel
  simp only [List.forall_mem_cons] at hlits
  obtain ⟨h1, h2, h3, h4, h5, h6, h7, h8, -⟩ := hlits
  simp only [anonymousHtml, unconfiguredHtml, ascii_append, h1, h2, h3, h4, h5, h6, h7, h8,
    and_true]

/-- The landing page is asked for, and what it says of the user is not ASCII. -/
def Foreign (d : Daemon δ) (r : Request) (sessions : Sessions) : Verb → Prop
  | .get => r.route = [] ∧ ∃ s, shown d r sessions = some s ∧ ¬Plain s
  | .post => False

/-- The page is ASCII exactly if it says nothing else of a user. -/
theorem ascii_rootInner (sessions : Sessions) : Ascii (page (rootInner d r sessions)) ↔
    ¬∃ s, shown d r sessions = some s ∧ ¬Plain s := by
  rw [ascii_page, rootInner]
  split
  next s hs =>
    rw [ascii_sessionHtml, hs]
    simp
  next hs =>
    rw [hs]
    refine iff_of_true ?_ (by simp)
    split_ifs
    · exact ascii_anonymousHtml.2
    · exact ascii_anonymousHtml.1

/-- The head of the page announces less than comes. -/
def Miscounted (acts : List Act) : Prop :=
  ∃ html bytes, acts = [.head 200 (htmlHeaders html), .body bytes] ∧ html.length < bytes.length

/-- The head of the page is all there is. -/
def Torn (acts : List Act) : Prop := ∃ html, acts = [.head 200 (htmlHeaders html)]

theorem announced_htmlHeaders (html : Text) :
    announced (htmlHeaders html) = [decimal html.length] := by
  simp [announced, htmlHeaders, announces, closes]

theorem triple_getRoot (sessions : Sessions) :
    Triple (fun c : Conn δ => c.sessions = sessions ∧ on Start c) (getRoot d r)
      (fun _ c => if Ascii (page (rootInner d r sessions)) then Answered Unanswered c.acts
        else Miscounted c.acts)
      (fun _ c => ¬Ascii (page (rootInner d r sessions)) ∧ Torn c.acts) := by
  refine .bind ((triple_renderRootHtml sessions).conseq (fun _ h => h) (fun _ _ h => h)
    fun _ _ h => h.elim) fun html => ?_
  refine .of_state (p := html = page (rootInner d r sessions)) (fun _ h => h.1) ?_
  rintro rfl
  generalize page (rootInner d r sessions) = html
  refine .bind ((triple_act (B := fun acts => acts = [])).conseq (fun _ h => h.2.1)
    (fun _ _ h => h) fun _ _ h => h) fun _ => ?_
  split
  next hnone =>
    refine .throw fun c hc => ⟨fun hascii => ?_, ?_⟩
    · rw [Utf8.encode_of_ascii hascii] at hnone
      cases hnone
    · obtain ⟨before, hacts, rfl⟩ := hc
      exact ⟨html, hacts⟩
  next bytes hbytes =>
    obtain ⟨hle, hall⟩ := Utf8.length_encode hbytes
    refine (triple_act (B := fun acts => acts = [.head 200 (htmlHeaders html)])).conseq
      ?_ ?_ fun _ _ h => h
    · rintro c ⟨before, hacts, rfl⟩
      exact hacts
    · rintro - c ⟨before, hacts, rfl⟩
      split_ifs with hascii
      · rw [Utf8.encode_of_ascii hascii] at hbytes
        obtain rfl := Option.some.inj hbytes
        exact ⟨[], 200, htmlHeaders html, [.body html], html, hacts, .inl rfl, .bytes html,
          by simp [htmlHeaders], announced_htmlHeaders html⟩
      · refine ⟨html, bytes, hacts, lt_of_le_of_ne hle fun heq => hascii (hall heq)⟩

/-- A page that is miscounted is no response as it should be. -/
theorem Miscounted.not_answered {B : List Act → Prop} {acts : List Act} (h : Miscounted acts)
    (hB : ∀ acts, B acts → Unanswered acts) : ¬Answered B acts := by
  obtain ⟨html, bytes, rfl, hlt⟩ := h
  rintro ⟨before, status, headers, rest, bytes', heq, hbefore, hsent, -, hannounced⟩
  rcases hB before hbefore with rfl | ⟨n, rfl⟩
  · obtain ⟨hhead, rfl⟩ := List.cons.inj heq
    obtain ⟨-, rfl⟩ := Act.head.inj hhead
    cases hsent
    rw [announced_htmlHeaders] at hannounced
    have := congrArg ofDigits (List.singleton_inj.mp hannounced)
    rw [ofDigits_decimal, ofDigits_decimal] at this
    omega
  · cases (List.cons.inj heq).1

/-- What was done before the head is sent. -/
def before (d : Daemon δ) (r : Request) : Verb → List Act → Prop
  | .get => Unanswered
  | .post => Drained d r

theorem shows_doGet (hroute : r.route ≠ []) : Shows (doGet d r) := by
  rw [doGet]
  refine .ite (fun _ => shows_getMetadata _) fun _ => .ite (fun _ => shows_getMetadata _) fun _ =>
    .ite (fun _ => shows_call _ fun out => shows_replyJson _ _) fun _ =>
    .ite (fun _ => shows_call _ fun out => shows_replyJson _ _) fun _ =>
    .ite (fun h => absurd h hroute) fun _ => .ite (fun _ => shows_getLogin) fun _ =>
    .ite (fun _ => shows_getCallback) fun _ => (serves_replyError 404 _).shows

theorem doGet_root (hroute : r.route = []) : doGet d r = getRoot d r := by
  have hne : ∀ u : String, lit u ≠ [] → r.route ≠ lit u := fun u hu h => hu (h ▸ hroute)
  rw [doGet, if_neg fun h => hne _ (by decide) h.2, if_neg fun h => h.2.elim (hne _ (by decide))
    (hne _ (by decide)), if_neg (hne _ (by decide)), if_neg (hne _ (by decide)), if_pos hroute]

/-- **What becomes of a request**: it is answered as it should be, or it raises before anything
is sent; except where the landing page is about a user with a character outside ASCII, whose
page is cut off by the client, or by an exception. -/
def Exchange (d : Daemon δ) (r : Request) (sessions : Sessions) (verb : Verb) :
    EStateM.Result Fault (Conn δ) Unit → Prop
  | .ok _ c => (Answered (before d r verb) c.acts ↔ ¬Foreign d r sessions verb) ∧
      (Foreign d r sessions verb → Miscounted c.acts)
  | .error _ c => (Unanswered c.acts ↔ ¬Foreign d r sessions verb) ∧
      (Foreign d r sessions verb → Torn c.acts)

/-- A request for another page. -/
theorem exchange_of_triple {verb : Verb} {x : Handler δ Unit} {sessions : Sessions} (daemon : δ)
    (hforeign : ¬Foreign d r sessions verb)
    (h : Triple (on Start) x (fun _ => on fun acts _ => Answered (before d r verb) acts)
      (fun _ => on fun acts _ => Unanswered acts)) :
    Exchange d r sessions verb (x (Conn.fresh sessions daemon)) := by
  have hout := h (Conn.fresh sessions daemon) ⟨rfl, rfl⟩
  rcases hx : x (Conn.fresh sessions daemon) with ⟨u, c⟩ | ⟨e, c⟩
  · rw [hx] at hout
    exact ⟨iff_of_true hout hforeign, fun hf => absurd hf hforeign⟩
  · rw [hx] at hout
    exact ⟨iff_of_true hout hforeign, fun hf => absurd hf hforeign⟩

/-- **Each request gets one response, or raises**, whatever it is and whatever the daemon does. -/
theorem exchange (d : Daemon δ) (r : Request) (verb : Verb) (sessions : Sessions) (daemon : δ) :
    Exchange d r sessions verb (serve d r verb (Conn.fresh sessions daemon)) := by
  cases verb with
  | post => exact exchange_of_triple daemon not_false serves_doPost
  | get =>
    by_cases hroute : r.route = []
    · -- the landing page
      have hfresh : (Conn.fresh sessions daemon).sessions = sessions ∧
          on Start (Conn.fresh sessions daemon) := ⟨rfl, rfl, rfl⟩
      have h := triple_getRoot (d := d) (r := r) sessions (Conn.fresh sessions daemon) hfresh
      have hforeign : Foreign d r sessions .get ↔ ¬Ascii (page (rootInner d r sessions)) := by
        rw [ascii_rootInner, not_not]
        exact and_iff_right hroute
      rw [serve, doGet_root hroute]
      rcases hx : getRoot d r (Conn.fresh sessions daemon) with ⟨u, c⟩ | ⟨e, c⟩
      · rw [hx] at h
        dsimp only at h
        rw [Exchange, hforeign, not_not]
        split_ifs at h with hascii
        · exact ⟨iff_of_true h hascii, fun hn => absurd hascii hn⟩
        · exact ⟨iff_of_false (h.not_answered fun _ hB => hB) hascii, fun _ => h⟩
      · rw [hx] at h
        obtain ⟨hascii, html, hacts⟩ := h
        rw [Exchange, hforeign, not_not]
        refine ⟨iff_of_false ?_ hascii, fun _ => ⟨html, hacts⟩⟩
        rw [hacts]
        rintro (hnil | ⟨n, hn⟩)
        · exact absurd hnil (List.cons_ne_nil _ _)
        · cases (List.cons.inj hn).1
    · exact exchange_of_triple daemon (fun h => hroute h.1) (shows_doGet hroute)

end Wire

end Http

end OtamanBridge
