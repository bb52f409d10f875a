import OtamanBridge.Bus.Envelope

/-!
# The other two readers of a message

A bus file is read in three places: by the watcher (`parse_bus_file`), by the code that
spawns sessions (`_parse_message` of `spawn_decision.py`) and by the event source of the file
system (`_parse_frontmatter` of `triggers/filesystem.py`). The first looks for a fence line;
the other two split the text at the first two places where three hyphens stand, wherever that
is.

On a text that the first one accepts, all three see the same envelope and the same body, up
to newlines before it, exactly if no three hyphens stand in the front matter, YAML makes the
same mapping of it with and without the blank text around it, and there is no white space but
newlines before the body (`OtamanBridge.Bus.agree_iff`).
-/

namespace OtamanBridge

namespace Bus

open Py

variable (py : Python)

/-! ### The readers -/

/-- `text.split("---", 2)`, if this gives three parts. -/
def splitFences (t : Text) : Option (Text × Text × Text) :=
  (cut (lit "---") t).bind fun (before, rest) =>
    (cut (lit "---") rest).map fun (block, after) => (before, block, after)

/-- `_yaml.safe_load(block)`, if it is a `dict`; any exception is caught. -/
def loadMapping (block : Text) : Option (List (Value × Value)) :=
  match py.safeLoad block with
  | .ok (.dict items) => some items
  | _ => none

/-- `_parse_message`: the frontmatter and the body, or nothing, or an exception that is not
caught. -/
def parseMessage : Option Inbox.Content → Except Unit (Option (List (Value × Value) × Text))
  | none => .ok none
  | some (.undecodable _) => .error ()
  | some (.text raw) => .ok
    ((splitFences (universalNewlines raw)).bind fun (_, block, after) =>
      (loadMapping py block).map fun items => (items, after))

/-- `_parse_frontmatter`. -/
def parseFrontmatter (t : Text) : Option (List (Value × Value)) :=
  (splitFences t).bind fun (_, block, _) => loadMapping py block

/-- `_read_with_retry`, on what the file holds each time it is read. -/
def readWithRetry : List (Option Inbox.Content) → Except Unit Bool
  | [] => .ok false
  | none :: _ => .ok false
  | some (.undecodable _) :: _ => .error ()
  | some (.text raw) :: contents =>
    if (cut (lit "---") (universalNewlines raw)).isSome &&
        (parseFrontmatter py (universalNewlines raw)).isSome then .ok true
    else readWithRetry contents

/-- How often the file is read: once for each of `_RETRY_DELAYS`, and once more. -/
def readAttempts : ℕ := 5

/-! ### What the fence search finds -/

theorem mem_afterNewlines {t u : Text} (h : u ∈ afterNewlines t) :
    ∃ blank, t = blank ++ u ∧ ∀ c ∈ blank, isSpace c := by
  induction t with
  | nil => exact absurd h List.not_mem_nil
  | cons c t ih =>
    rw [afterNewlines] at h
    split_ifs at h with hc hnl
    · rcases List.mem_append.mp h with h | h
      · obtain ⟨blank, rfl, hblank⟩ := ih h
        exact ⟨c :: blank, rfl, List.forall_mem_cons.mpr ⟨hc, hblank⟩⟩
      · obtain rfl := List.mem_singleton.mp h
        exact ⟨[c], rfl, fun d hd => List.mem_singleton.mp hd ▸ hc⟩
    · rw [List.append_nil] at h
      obtain ⟨blank, rfl, hblank⟩ := ih h
      exact ⟨c :: blank, rfl, List.forall_mem_cons.mpr ⟨hc, hblank⟩⟩
    · exact absurd h List.not_mem_nil

/-- **The parts of a text with front matter**: white space, the block, the closing fence and
the rest stand after the opening one. -/
structure Parts (t blank fm rest : Text) : Prop where
  eq : t = lit "---" ++ (blank ++ (fm ++ 10 :: (lit "---" ++ rest)))
  space : ∀ c ∈ blank, isSpace c
  found : frontmatterMatch t = some (fm, lstrip rest)

theorem exists_parts {t fm body : Text} (h : frontmatterMatch t = some (fm, body)) :
    ∃ blank rest, Parts t blank fm rest ∧ body = lstrip rest := by
  have hmatch := h
  unfold frontmatterMatch at h
  split_ifs at h with hopen
  obtain ⟨u, hu, hclose⟩ := List.exists_of_findSome?_eq_some h
  obtain ⟨blank, hblank, hspace⟩ := mem_afterNewlines hu
  rcases u with _ | ⟨c, u⟩
  · exact absurd hclose (by simp [closingFence])
  obtain ⟨⟨before, rest⟩, hcut, hpair⟩ := Option.map_eq_some_iff.mp hclose
  obtain ⟨rfl, rfl⟩ := Prod.mk.inj hpair
  have ht : t = lit "---" ++ t.drop 3 :=
    (List.prefix_iff_eq_append.mp (List.isPrefixOf_iff_prefix.mp hopen)).symm
  refine ⟨blank, rest, ⟨?_, hspace, hmatch⟩, rfl⟩
  rw [ht, hblank, eq_of_cut hcut]
  have hfence : lit "\n---" = 10 :: lit "---" := by decide
  simp [hfence]

/-! ### Where the text is split -/

theorem hyphen_not_mem {blank : Text} (h : ∀ c ∈ blank, isSpace c) : 45 ∉ blank :=
  fun hmem => absurd (h 45 hmem) (by decide)

/-- Without hyphens in the block, the other readers split where the fences are. -/
theorem splitFences_of_clean {t blank fm rest : Text} (h : Parts t blank fm rest)
    (hclean : ¬lit "---" <:+: fm) :
    splitFences t = some ([], blank ++ (fm ++ [10]), rest) := by
  have hfence : lit "---" = [45, 45, 45] := by decide
  have hblock : cut (lit "---") (blank ++ (fm ++ 10 :: (lit "---" ++ rest))) =
      some (blank ++ (fm ++ [10]), rest) := by
    have hnl : cut (lit "---") (10 :: (lit "---" ++ rest)) = some ([10], rest) := by
      have hone : cut (45 :: [45, 45]) ([10] ++ (lit "---" ++ rest)) = _ :=
        cut_append (by decide) _
      rw [← hfence, cut_self] at hone
      simpa using hone
    have hpass : cut (45 :: [45, 45]) (blank ++ (fm ++ 10 :: (lit "---" ++ rest))) = _ :=
      cut_append (hyphen_not_mem h.space) _
    rw [← hfence, cut_append_of_not_infix (by decide) hclean (by decide), hnl] at hpass
    rw [hpass]
    rfl
  rw [splitFences, h.eq, cut_self]
  simp [hblock]

/-- With hyphens in the block, the part after the second cut is longer than what stands after
the closing fence. -/
theorem splitFences_of_hyphens {t blank fm rest before block after : Text}
    (h : Parts t blank fm rest) (hin : lit "---" <:+: fm)
    (hsplit : splitFences t = some (before, block, after)) :
    ∃ s, after = s ++ 10 :: (lit "---" ++ rest) := by
  obtain ⟨x, y, rfl⟩ := hin
  obtain ⟨⟨_, u⟩, hfirst, hrest⟩ := Option.bind_eq_some_iff.mp hsplit
  rw [h.eq, cut_self] at hfirst
  obtain ⟨-, rfl⟩ := Prod.mk.inj (Option.some.inj hfirst)
  obtain ⟨⟨a, b⟩, hcut, hparts⟩ := Option.map_eq_some_iff.mp hrest
  obtain ⟨-, rfl⟩ := Prod.mk.inj (Prod.mk.inj hparts).2
  -- the cut is made at these hyphens, or before them
  obtain ⟨a', b', hcut', hle⟩ := exists_cut (lit "---") (blank ++ x)
    (y ++ 10 :: (lit "---" ++ rest))
  have hsame : blank ++ (x ++ lit "---" ++ y ++ 10 :: (lit "---" ++ rest)) =
      blank ++ x ++ (lit "---" ++ (y ++ 10 :: (lit "---" ++ rest))) := by simp
  rw [← hsame, hcut] at hcut'
  obtain ⟨rfl, rfl⟩ := Prod.mk.inj (Option.some.inj hcut')
  have hall : a ++ lit "---" ++ b =
      (blank ++ x ++ lit "---" ++ y) ++ 10 :: (lit "---" ++ rest) := by
    rw [← eq_of_cut hcut]
    simp
  rcases List.append_eq_append_iff.mp hall with ⟨s, -, hb⟩ | ⟨s, hs, hq⟩
  · exact ⟨s, hb⟩
  · have hlen := congrArg List.length hs
    simp only [List.length_append] at hlen hle
    obtain rfl : s = [] := List.eq_nil_of_length_eq_zero (by omega)
    exact ⟨[], hq.symm⟩

/-! ### The bodies -/

/-- `str.lstrip("\n")`. -/
def dropNewlines (t : Text) : Text := t.dropWhile (· = 10)

theorem dropNewlines_lstrip (t : Text) : dropNewlines (lstrip t) = lstrip t := by
  have hhead := List.head?_dropWhile_not isSpace t
  rcases h : lstrip t with _ | ⟨c, u⟩
  · rfl
  · have hc : isSpace c = false := by
      unfold lstrip at h
      rw [h] at hhead
      exact hhead
    refine List.dropWhile_cons_of_neg ?_
    rw [decide_eq_true_eq]
    rintro rfl
    exact absurd hc (by decide)

/-- Stripping the newlines is stripping all there is, unless something else is there. -/
theorem dropNewlines_eq_lstrip_iff (t : Text) :
    dropNewlines t = lstrip t ↔ ∀ c ∈ (dropNewlines t).head?, isSpace c = false := by
  have htwice : lstrip (dropNewlines t) = lstrip t := by
    induction t with
    | nil => rfl
    | cons c t ih =>
      by_cases hc : c = 10
      · subst hc
        exact ih
      · rw [dropNewlines, List.dropWhile_cons_of_neg (by simpa using hc)]
  rw [← htwice]
  rcases dropNewlines t with _ | ⟨c, u⟩
  · simp [lstrip]
  · by_cases hc : isSpace c
    · have hlen : (lstrip (c :: u)).length ≤ u.length := by
        rw [lstrip, List.dropWhile_cons_of_pos hc]
        exact (List.dropWhile_suffix _).length_le
      constructor
      · intro heq
        rw [← heq, List.length_cons] at hlen
        omega
      · intro hall
        exact absurd hc (by simp [hall c rfl])
    · simp [lstrip, hc]

/-- A text that has the closing fence in it is longer than what follows the fence. -/
theorem length_lt_dropNewlines (s rest : Text) :
    rest.length < (dropNewlines (s ++ 10 :: (lit "---" ++ rest))).length := by
  have hfence : lit "---" = [45, 45, 45] := by decide
  induction s with
  | nil =>
    simp only [List.nil_append, dropNewlines, hfence]
    rw [List.dropWhile_cons_of_pos (by decide), List.cons_append,
      List.dropWhile_cons_of_neg (by decide)]
    simp only [List.length_cons, List.length_append]
    omega
  | cons c s ih =>
    by_cases hc : c = 10
    · subst hc
      exact ih
    · rw [List.cons_append, dropNewlines, List.dropWhile_cons_of_neg (by simpa using hc)]
      simp only [List.length_cons, List.length_append]
      omega

/-! ### When they agree -/

/-- What `parse_bus_file` makes of a block: `yaml.safe_load(block) or {}`, if it is a
`dict`. -/
def loadOrEmpty (block : Text) : Option (List (Value × Value)) :=
  match py.safeLoad block with
  | .ok v =>
    match if v.truthy then v else .dict [] with
    | .dict items => some items
    | _ => none
  | .error _ => none

/-- **The three readers agree** on a file with this text, of which `parse_bus_file` makes `m`:
the other two accept it with the same mapping, and the body is the same up to the newlines
before it. -/
structure Agree (raw : Text) (m : BusMessage) : Prop where
  message : ∃ after, parseMessage py (some (.text raw)) = .ok (some (m.frontmatter, after)) ∧
    dropNewlines after = dropNewlines m.body
  trigger : readWithRetry py (List.replicate readAttempts (some (.text raw))) = .ok true
  frontmatter : parseFrontmatter py (universalNewlines raw) = some m.frontmatter

/-- **The text is laid out plainly**: no three hyphens stand in the block, YAML makes the same
mapping of it with the blank text around it and without, and nothing but newlines stands
before the body. -/
def LaidOut (t : Text) : Prop :=
  ∃ blank fm rest, Parts t blank fm rest ∧ ¬lit "---" <:+: fm ∧
    loadMapping py (blank ++ (fm ++ [10])) = loadOrEmpty py fm ∧
    ∀ c ∈ (dropNewlines rest).head?, isSpace c = false

variable {py}

/-- What a text is that `parse_bus_file` accepts. -/
theorem parts_of_parse {stem raw : Text} {m : BusMessage}
    (h : parseBusFile py stem (some (.text raw)) = .ok (some m)) :
    ∃ blank fm rest, Parts (universalNewlines raw) blank fm rest ∧
      loadOrEmpty py fm = some m.frontmatter ∧ m.body = lstrip rest := by
  simp only [parseBusFile] at h
  split at h
  · exact absurd h (by simp)
  next fm body hmatch =>
    obtain ⟨blank, rest, hparts, rfl⟩ := exists_parts hmatch
    split at h
    · exact absurd h (by simp)
    · exact absurd h (by simp)
    next v hload =>
      split at h
      next items hitems =>
        obtain rfl := Option.some.inj (Except.ok.inj h)
        refine ⟨blank, fm, rest, hparts, ?_, rfl⟩
        simp only [loadOrEmpty, hload, hitems]
      · exact absurd h (by simp)

/-- A trigger that finds the mapping accepts the file, at the first attempt. -/
theorem readWithRetry_of_parseFrontmatter {raw : Text} {items : List (Value × Value)}
    (h : parseFrontmatter py (universalNewlines raw) = some items) :
    readWithRetry py (List.replicate readAttempts (some (.text raw))) = .ok true := by
  have hfence : (cut (lit "---") (universalNewlines raw)).isSome := by
    obtain ⟨_, hsplit, -⟩ := Option.bind_eq_some_iff.mp h
    obtain ⟨_, hcut, -⟩ := Option.bind_eq_some_iff.mp hsplit
    rw [hcut]
    rfl
  rw [readAttempts, List.replicate_succ, readWithRetry, if_pos (by rw [hfence, h]; rfl)]

/-- **When the frontmatter parsers agree.** On every text that `parse_bus_file` accepts, the
other two readers see the same frontmatter and the same body, up to leading newlines, exactly
if the text is laid out plainly. -/
theorem agree_iff {stem raw : Text} {m : BusMessage}
    (h : parseBusFile py stem (some (.text raw)) = .ok (some m)) :
    Agree py raw m ↔ LaidOut py (universalNewlines raw) := by
  obtain ⟨blank, fm, rest, hparts, hload, hbody⟩ := parts_of_parse h
  constructor
  · rintro ⟨⟨after, hmessage, hafter⟩, -, hfrontmatter⟩
    obtain ⟨⟨before, block, after'⟩, hsplit, hmap⟩ :=
      Option.bind_eq_some_iff.mp (Except.ok.inj hmessage)
    obtain ⟨items, hitems, hpair⟩ := Option.map_eq_some_iff.mp hmap
    obtain ⟨rfl, rfl⟩ := Prod.mk.inj hpair
    have hclean : ¬lit "---" <:+: fm := by
      intro hin
      obtain ⟨s, rfl⟩ := splitFences_of_hyphens hparts hin hsplit
      have hlong := length_lt_dropNewlines s rest
      rw [hafter, hbody, dropNewlines_lstrip] at hlong
      exact absurd (List.dropWhile_suffix isSpace).length_le (not_le.mpr hlong)
    rw [splitFences_of_clean hparts hclean] at hsplit
    obtain ⟨-, hrest⟩ := Prod.mk.inj (Option.some.inj hsplit)
    obtain ⟨rfl, rfl⟩ := Prod.mk.inj hrest
    refine ⟨blank, fm, rest, hparts, hclean, by rw [hitems, hload], ?_⟩
    rw [← dropNewlines_eq_lstrip_iff, hafter, hbody, dropNewlines_lstrip]
  · rintro ⟨blank', fm', rest', hparts', hclean, hsame, hnewlines⟩
    have hfound := hparts.found.symm.trans hparts'.found
    obtain ⟨rfl, hrest⟩ := Prod.mk.inj (Option.some.inj hfound)
    rw [hload] at hsame
    have hsplit := splitFences_of_clean hparts' hclean
    have hfrontmatter : parseFrontmatter py (universalNewlines raw) = some m.frontmatter := by
      rw [parseFrontmatter, hsplit]
      exact hsame
    refine ⟨⟨rest', ?_, ?_⟩, readWithRetry_of_parseFrontmatter hfrontmatter, hfrontmatter⟩
    · rw [parseMessage, hsplit]
      simp only [Option.bind_some, hsame, Option.map_some]
    · rw [hbody, dropNewlines_lstrip, hrest, dropNewlines_eq_lstrip_iff]
      exact hnewlines

/-- A Python whose YAML reads lines of strings, and for which a blank line is nothing. -/
def linesPython : Python where
  str := plainPython.str
  lower := plainPython.lower
  safeLoad t := plainPython.safeLoad (joinLines ((splitlines t).filter (· ≠ [])))

/-- A message as it is usually written is the same for all three. -/
theorem agree_iff_usual :
    ∃ m, parseBusFile linesPython (lit "req")
        (some (.text (lit "---\nid: a\nfrom: b\n---\n\nhello\n"))) = .ok (some m) ∧
      Agree linesPython (lit "---\nid: a\nfrom: b\n---\n\nhello\n") m := by
  have hparse : parseBusFile linesPython (lit "req")
      (some (.text (lit "---\nid: a\nfrom: b\n---\n\nhello\n"))) =
        .ok (some ⟨lit "req", [(.str (lit "id"), .str (lit "a")),
          (.str (lit "from"), .str (lit "b"))], lit "hello\n"⟩) := by rfl
  refine ⟨_, hparse, (agree_iff hparse).mpr ?_⟩
  refine ⟨lit "\n", lit "id: a\nfrom: b", lit "\n\nhello\n", ⟨?_, ?_, ?_⟩, ?_, ?_, ?_⟩
  · decide +kernel
  · decide
  · decide +kernel
  · decide
  · rfl
  · decide

/-- **Three hyphens in a subject** are a fence to the other two: the spawner sees a body that
begins in the middle of the subject. -/
theorem not_agree_hyphens :
    ∃ m, parseBusFile linesPython (lit "req")
        (some (.text (lit "---\nsubject: a --- b\n---\nhello\n"))) = .ok (some m) ∧
      ¬Agree linesPython (lit "---\nsubject: a --- b\n---\nhello\n") m := by
  have hparse : parseBusFile linesPython (lit "req")
      (some (.text (lit "---\nsubject: a --- b\n---\nhello\n"))) =
        .ok (some ⟨lit "req", [(.str (lit "subject"), .str (lit "a --- b"))], lit "hello\n"⟩) := by
    rfl
  refine ⟨_, hparse, ?_⟩
  rintro ⟨⟨after, hmessage, hafter⟩, -, -⟩
  obtain ⟨⟨before, block, after'⟩, hsplit, hmap⟩ :=
    Option.bind_eq_some_iff.mp (Except.ok.inj hmessage)
  obtain ⟨items, -, hpair⟩ := Option.map_eq_some_iff.mp hmap
  obtain ⟨-, rfl⟩ := Prod.mk.inj hpair
  have hsecond : (splitFences (universalNewlines
      (lit "---\nsubject: a --- b\n---\nhello\n"))).map (fun p => p.2.2) =
        some (lit " b\n---\nhello\n") := by decide +kernel
  rw [hsplit] at hsecond
  obtain rfl := Option.some.inj hsecond
  exact absurd hafter (by decide)

end Bus

end OtamanBridge
