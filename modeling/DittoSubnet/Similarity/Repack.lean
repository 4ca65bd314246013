import DittoSubnet.Similarity.NormalizedSource

/-!
# Repackaging

The edits that the normalized source hash sees through. A position of a text is a cut `pre ++ post`; it is `Outside`
when the scanner has read `pre` and is in code, neither in a string or a comment nor behind a `/`.

* `stripComments_append`: at such a position the scanner starts afresh.
* `normalizedSource_edit`: an edit leaves the normalized source as it is.
* `contributions_repack`: a repackaging leaves the set of shingles as it is.
* `hash_repacked`: so the hash does not change.
-/

namespace DittoSubnet.Similarity

open Kit

/-! ## Positions -/

/-- The scanner is in code after the prefix. -/
def Outside (pre : List Char) : Prop := scanner.run .code pre = .code

instance (pre : List Char) : Decidable (Outside pre) := inferInstanceAs (Decidable (_ = _))

/-- What the scanner keeps of a prefix. -/
def keptOf (pre : List Char) : List Char := scanner.out .code pre

theorem stripComments_append {pre : List Char} (h : Outside pre) (post : List Char) :
    stripComments false (pre ++ post) = keptOf pre ++ stripComments false post := by
  rw [stripComments_eq_eval, stripComments_eq_eval, if_neg (by decide), Transducer.eval_append, h]
  rfl

/-- The end of a line, or the start of one. -/
def AtLineEnd (pre post : List Char) : Prop :=
  post = [] ∨ (∃ c rest, post = c :: rest ∧ lineBoundary c = true) ∨ ∃ before c, pre = before ++ [c] ∧
    lineBoundary c = true

/-- The edits of one text. -/
inductive Edit : List Char → List Char → Prop
  /-- Spaces and tabs. -/
  | spaces {pre post blank : List Char} : Outside pre → (∀ c ∈ blank, c = ' ' ∨ c = '\t') →
    Edit (pre ++ post) (pre ++ (blank ++ post))
  /-- A block comment. -/
  | blockComment {pre post body : List Char} : Outside pre → ¬ ['*', '/'] <:+: body →
    Edit (pre ++ post) (pre ++ ('/' :: '*' :: (body ++ ['*', '/']) ++ post))
  /-- A blank line. -/
  | blankLine {pre post : List Char} : Outside pre → AtLineEnd pre post → Edit (pre ++ post) (pre ++ ('\n' :: post))
  /-- A line comment before a newline. -/
  | lineComment {pre post body : List Char} : Outside pre → '\n' ∉ body →
    Edit (pre ++ '\n' :: post) (pre ++ ('/' :: '/' :: body ++ '\n' :: post))
  /-- A line comment before a newline with its carriage return. -/
  | lineCommentReturn {pre post body : List Char} : Outside pre → '\n' ∉ body →
    Edit (pre ++ '\r' :: '\n' :: post) (pre ++ ('/' :: '/' :: body ++ '\r' :: '\n' :: post))

/-- One step of a repackaging. -/
inductive Repack : List Member → List Member → Prop
  | reorder {members members' : List Member} : members.Perm members' → Repack members members'
  | rename {before after : List Member} {name name' : String} {text : List Char} :
    isGeneratedLockfile name' = isGeneratedLockfile name →
      Repack (before ++ ⟨name, text⟩ :: after) (before ++ ⟨name', text⟩ :: after)
  | addEmpty {before after : List Member} (name : String) : Repack (before ++ after) (before ++ ⟨name, []⟩ :: after)
  | edit {before after : List Member} {name : String} {text text' : List Char} : Edit text text' →
      Repack (before ++ ⟨name, text⟩ :: after) (before ++ ⟨name, text'⟩ :: after)

/-! ## The scanner over an edit -/

theorem scan_code {text : List Char} (h : ∀ c ∈ text, c ≠ '"' ∧ c ≠ '/') :
    scanner.run .code text = .code ∧ scanner.out .code text = text := by
  induction text with
  | nil => exact ⟨rfl, rfl⟩
  | cons c text ih =>
    obtain ⟨hquote, hslash⟩ := h c List.mem_cons_self
    obtain ⟨hrun, hout⟩ := ih fun d hd => h d (List.mem_cons_of_mem c hd)
    constructor
    · simpa [Mode.next, hquote, hslash] using hrun
    · simp [Mode.next, Mode.kept, hquote, hslash, hout]

/-- Characters that are no quotes and no slashes are kept in code. -/
theorem stripComments_code {text : List Char} (h : ∀ c ∈ text, c ≠ '"' ∧ c ≠ '/') (post : List Char) :
    stripComments false (text ++ post) = text ++ stripComments false post := by
  obtain ⟨hrun, hout⟩ := scan_code h
  rw [stripComments_append hrun, keptOf, hout]

/-- So are the characters that end a line. -/
theorem stripComments_boundary {c : Char} (hc : lineBoundary c = true) (post : List Char) :
    stripComments false (c :: post) = c :: stripComments false post := by
  refine @stripComments_code [c] ?_ post
  intro d hd
  rw [List.mem_singleton.1 hd]
  constructor <;> rintro rfl <;> exact absurd hc (by decide)

theorem afterClose_body {body : List Char} (h : ¬ ['*', '/'] <:+: body) (post : List Char) :
    afterClose (body ++ '*' :: '/' :: post) = post := by
  induction body with
  | nil => rfl
  | cons c body ih =>
    have hbody : ¬ ['*', '/'] <:+: body := fun hin => h (hin.trans (List.infix_cons (List.infix_refl body)))
    have hskip : afterClose (c :: (body ++ '*' :: '/' :: post)) = afterClose (body ++ '*' :: '/' :: post) := by
      cases body with
      | nil => simp [afterClose]
      | cons d body =>
        by_cases hopen : c = '*' ∧ d = '/'
        · obtain ⟨rfl, rfl⟩ := hopen
          exact absurd ⟨[], body, rfl⟩ h
        · have hne : c = '*' → d ≠ '/' := fun hc hd => hopen ⟨hc, hd⟩
          by_cases hc : c = '*' <;> simp [afterClose, hc, hne]
    rw [List.cons_append, hskip, ih hbody]

/-- A block comment is dropped. -/
theorem stripComments_block {body : List Char} (h : ¬ ['*', '/'] <:+: body) (post : List Char) :
    stripComments false ('/' :: '*' :: (body ++ ['*', '/']) ++ post) = stripComments false post := by
  have hcut : '/' :: '*' :: (body ++ ['*', '/']) ++ post = '/' :: '*' :: (body ++ '*' :: '/' :: post) := by simp
  rw [hcut, stripComments]
  simp [afterClose_body h]

/-- A line comment is dropped up to the newline. -/
theorem stripComments_line {body : List Char} (h : '\n' ∉ body) (post : List Char) :
    stripComments false ('/' :: '/' :: body ++ '\n' :: post) = stripComments false ('\n' :: post) := by
  have hdrop : ('/' :: (body ++ '\n' :: post)).dropWhile (· ≠ '\n') = '\n' :: post := by
    rw [List.dropWhile_cons_of_pos (by decide), List.dropWhile_append_of_pos]
    · rfl
    · intro c hc
      simpa using fun hn : c = '\n' => h (hn ▸ hc)
  rw [List.cons_append, stripComments]
  simp only [List.cons_append, List.head?_cons]
  rw [hdrop]
  simp

/-- A character that ends a line outside comments is kept, and kept last. -/
theorem exists_keptOf {before : List Char} {c : Char} (hc : lineBoundary c = true) (h : Outside (before ++ [c])) :
    ∃ kept, keptOf (before ++ [c]) = kept ++ [c] := by
  have hslash : c ≠ '/' := by rintro rfl; exact absurd hc (by decide)
  have hstar : c ≠ '*' := by rintro rfl; exact absurd hc (by decide)
  unfold Outside at h
  rw [Transducer.run_append, Transducer.run_cons, Transducer.run_nil, scanner_step] at h
  unfold keptOf
  rw [Transducer.out_append, Transducer.out_cons, Transducer.out_nil, List.append_nil, scanner_emit]
  cases hmode : scanner.run .code before with
  | code => exact ⟨scanner.out .code before, by simp [Mode.kept, hslash]⟩
  | slash => exact ⟨scanner.out .code before ++ ['/'], by simp [Mode.kept, hslash, hstar]⟩
  | string => exact ⟨scanner.out .code before, rfl⟩
  | escape => exact ⟨scanner.out .code before, rfl⟩
  | line =>
    rw [hmode] at h
    by_cases hn : c = '\n'
    · exact ⟨scanner.out .code before, by simp [Mode.kept, hn]⟩
    · simp [Mode.next, hn] at h
  | block =>
    rw [hmode] at h
    simp [Mode.next, hstar] at h
  | star =>
    rw [hmode] at h
    simp [Mode.next, hslash, hstar] at h

/-- A line end stays one when the comments are stripped. -/
theorem AtLineEnd.strip {pre post : List Char} (h : AtLineEnd pre post) (hpre : Outside pre) :
    AtLineEnd (keptOf pre) (stripComments false post) := by
  rcases h with rfl | ⟨c, rest, rfl, hc⟩ | ⟨before, c, rfl, hc⟩
  · exact .inl (by rw [stripComments])
  · exact .inr (.inl ⟨c, stripComments false rest, stripComments_boundary hc rest, hc⟩)
  · obtain ⟨kept, hkept⟩ := exists_keptOf hc hpre
    exact .inr (.inr ⟨kept, c, hkept, hc⟩)

/-! ## The lines over an edit -/

/-- Spaces and tabs leave no trace in a line. -/
theorem silent_spaces (line : List Char) {blank : List Char} (h : ∀ c ∈ blank, c = ' ' ∨ c = '\t') :
    liner.Silent line blank := by
  refine Transducer.silent_of_forall ?_
  intro c hc
  rcases h c hc with rfl | rfl
  · exact ⟨rfl, rfl⟩
  · exact ⟨rfl, rfl⟩

theorem liner_boundary {c : Char} (hc : lineBoundary c = true) (line text : List Char) :
    liner.eval line (c :: text) = oneLine line ++ liner.eval [] text := by
  rw [Transducer.eval_cons]
  simp [liner, hc]

/-- At a line end another line end leaves no trace. -/
theorem liner_lineEnd {pre post : List Char} (h : AtLineEnd pre post) {b : Char} (hb : lineBoundary b = true) :
    liner.eval [] (pre ++ b :: post) = liner.eval [] (pre ++ post) := by
  rw [Transducer.eval_append, Transducer.eval_append, liner_boundary hb]
  rcases h with rfl | ⟨c, rest, rfl, hc⟩ | ⟨before, c, rfl, hc⟩
  · rw [Transducer.eval_nil, Transducer.eval_nil]
    exact congrArg _ (List.append_nil _)
  · rw [liner_boundary hc, liner_boundary hc]
    rfl
  · have hstart : liner.run [] (before ++ [c]) = [] := by
      rw [Transducer.run_append]
      simp [liner, hc]
    rw [hstart]
    rfl

/-- An edit leaves the lines as they are. -/
theorem squeezedLines_edit {text text' : List Char} (h : Edit text text') :
    squeezedLines (stripComments false text') = squeezedLines (stripComments false text) := by
  rw [squeezedLines_eq_eval, squeezedLines_eq_eval]
  cases h with
  | @spaces pre post blank hpre hblank =>
    have hplain : ∀ c ∈ blank, c ≠ '"' ∧ c ≠ '/' := by
      intro c hc
      rcases hblank c hc with rfl | rfl
      · decide
      · decide
    rw [stripComments_append hpre, stripComments_append hpre, stripComments_code hplain]
    exact Transducer.eval_insert _ _ (silent_spaces _ hblank)
  | @blockComment pre post body hpre hbody =>
    rw [stripComments_append hpre, stripComments_append hpre, stripComments_block hbody]
  | @blankLine pre post hpre hend =>
    have hboundary : lineBoundary '\n' = true := rfl
    rw [stripComments_append hpre, stripComments_append hpre, stripComments_boundary hboundary]
    exact liner_lineEnd (hend.strip hpre) hboundary
  | @lineComment pre post body hpre hbody =>
    rw [stripComments_append hpre, stripComments_append hpre, stripComments_line hbody]
  | @lineCommentReturn pre post body hpre hbody =>
    have hbody' : '\n' ∉ body ++ ['\r'] := by simpa using hbody
    have hcut : '/' :: '/' :: body ++ '\r' :: '\n' :: post = '/' :: '/' :: (body ++ ['\r']) ++ '\n' :: post := by simp
    have hboundary : lineBoundary '\r' = true := rfl
    have hend : AtLineEnd pre ('\n' :: post) := .inr (.inl ⟨'\n', post, rfl, by decide⟩)
    -- The comment takes the carriage return along; the newline ends the line without it.
    rw [hcut, stripComments_append hpre, stripComments_append hpre, stripComments_line hbody',
      stripComments_boundary hboundary]
    exact (liner_lineEnd (hend.strip hpre) hboundary).symm

theorem normalizedSource_edit {text text' : List Char} (h : Edit text text') :
    normalizedSource text' = normalizedSource text := congrArg joinLines (squeezedLines_edit h)

/-! ## The hash over a repackaging -/

/-- The bundle has the normalized digest of every file whose raw digest it has and that has a normalized source. -/
def KitNormalized (a : Anticopy) : Prop :=
  ∀ text, a.sha256 (utf8 text) ∈ a.kitExact → normalizedSource text ≠ [] →
    a.sha256 (utf8 (normalizedSource text)) ∈ a.kitNormalized

/-- What a member puts into the set is a matter of its normalized source. -/
theorem mem_contribution_iff {a : Anticopy} (ha : KitNormalized a) {m : Member} {x : ShingleHash} :
    x ∈ contribution a m ↔ isGeneratedLockfile m.name = false ∧
      a.sha256 (utf8 (normalizedSource m.text)) ∉ a.kitNormalized ∧ x ∈ normalizedSourceShingles a m.text := by
  unfold contribution excludedFromFingerprints isStockKitContent
  by_cases hempty : normalizedSource m.text = []
  · simp [normalizedSourceShingles, hempty]
  · by_cases hexact : a.sha256 (utf8 m.text) ∈ a.kitExact
    · have hnormalized := ha m.text hexact hempty
      simp [hexact, hnormalized]
    · by_cases hnormalized : a.sha256 (utf8 (normalizedSource m.text)) ∈ a.kitNormalized
      · simp [hempty, hexact, hnormalized]
      · cases isGeneratedLockfile m.name <;> simp [hempty, hexact, hnormalized]

theorem contribution_congr {a : Anticopy} (ha : KitNormalized a) {m m' : Member}
    (hname : isGeneratedLockfile m'.name = isGeneratedLockfile m.name)
    (htext : normalizedSource m'.text = normalizedSource m.text) : contribution a m' = contribution a m := by
  ext x
  rw [mem_contribution_iff ha, mem_contribution_iff ha, hname, htext, normalizedSourceShingles,
    normalizedSourceShingles, htext]

theorem contribution_empty {a : Anticopy} (ha : KitNormalized a) (name : String) : contribution a ⟨name, []⟩ = ∅ := by
  ext x
  rw [mem_contribution_iff ha]
  simp [normalizedSourceShingles, normalizedSource, stripComments, squeezedLines, splitLines, splitLinesFrom, joinLines]

theorem contributions_append (a : Anticopy) (members members' : List Member) :
    contributions a (members ++ members') = contributions a members ∪ contributions a members' := by
  ext x
  simp [mem_contributions, or_and_right, exists_or]

theorem contributions_cons (a : Anticopy) (m : Member) (members : List Member) :
    contributions a (m :: members) = contribution a m ∪ contributions a members := rfl

/-- One step of a repackaging leaves the set of shingles as it is. -/
theorem contributions_step {a : Anticopy} (ha : KitNormalized a) {members members' : List Member}
    (h : Repack members members') : contributions a members' = contributions a members := by
  cases h with
  | reorder hperm =>
    ext x
    simp only [mem_contributions, hperm.mem_iff]
  | @rename before after name name' text hname =>
    have hsame : contribution a ⟨name', text⟩ = contribution a ⟨name, text⟩ := contribution_congr ha hname rfl
    rw [contributions_append, contributions_append, contributions_cons, contributions_cons, hsame]
  | @addEmpty before after name =>
    rw [contributions_append, contributions_append, contributions_cons, contribution_empty ha, Finset.empty_union]
  | @edit before after name text text' hedit =>
    have hsame : contribution a ⟨name, text'⟩ = contribution a ⟨name, text⟩ :=
      contribution_congr ha rfl (normalizedSource_edit hedit)
    rw [contributions_append, contributions_append, contributions_cons, contributions_cons, hsame]

theorem contributions_repack {a : Anticopy} (ha : KitNormalized a) {members members' : List Member}
    (h : Relation.ReflTransGen Repack members members') : contributions a members' = contributions a members := by
  induction h with
  | refl => rfl
  | tail _ hstep ih => rw [contributions_step ha hstep, ih]

/-- The normalized source hash sees through every repackaging within the guards. -/
theorem hash_repacked {a : Anticopy} (ha : KitNormalized a) {members members' : List Member}
    (h : Relation.ReflTransGen Repack members members') (hguards : WithinGuards members)
    (hguards' : WithinGuards members') :
    computeNormalizedSourceHash a members' = computeNormalizedSourceHash a members := by
  rw [computeNormalizedSourceHash_eq a hguards, computeNormalizedSourceHash_eq a hguards', contributions_repack ha h]

/-! ## A repackaged submission -/

theorem utf8_injective : Function.Injective utf8 := by
  intro text text' h
  have hbytes : text.utf8Encode = text'.utf8Encode := congrArg List.toByteArray h
  exact String.ofList_injective (String.toByteArray_inj.1 hbytes)

def kitText : List Char := "# kit\nstart()\n".toList

/-- A package with one kit file, whose digest is zero and that of its normalized source one; the bytes of other files
are read as a number. -/
def sampleAnticopy : Anticopy where
  sha256 bytes :=
    if bytes = utf8 kitText then 0
    else if bytes = utf8 (normalizedSource kitText) then 1
    else max 2 (Fin.ofNat _ (bytes.foldl (fun d b => 256 * d + b.toNat) 0))
  kitExact := {0}
  kitNormalized := {1}
  reference := ∅
  corpusId := "corpus"

theorem kitNormalized_sampleAnticopy : KitNormalized sampleAnticopy := by
  intro text hexact _
  have hdigest : sampleAnticopy.sha256 (utf8 text) = 0 := Finset.mem_singleton.1 hexact
  have htext : text = kitText := by
    by_contra hne
    have hbytes : utf8 text ≠ utf8 kitText := fun h => hne (utf8_injective h)
    simp only [sampleAnticopy, if_neg hbytes] at hdigest
    split at hdigest
    · exact absurd hdigest (by decide)
    · have hle : (2 : Digest) ≤ 0 := hdigest ▸ le_max_left _ _
      exact absurd hle (by decide)
  subst htext
  decide +kernel

def sampleHead : List Char := "let url = \"http://x\";".toList

def sampleTail : List Char :=
  "\nlet a = 1;\nlet b = 2;\nlet c = 3;\nlet d = 4;\nlet e = 5;\nlet f = 6;\n".toList

/-- A kit file and a file of the miner's own. -/
def sampleMembers : List Member := [⟨"kit.py", kitText⟩, ⟨"src/a.rs", sampleHead ++ sampleTail⟩]

/-- An empty file before them, the kit file with a space more, and the other file renamed and commented. -/
def repackedMembers : List Member :=
  [⟨"b.rs", []⟩, ⟨"kit.py", [] ++ ([' '] ++ kitText)⟩,
    ⟨"c.rs", sampleHead ++ ("/* \" */".toList ++ sampleTail)⟩]

/-- The repackaged submission has the hash of the original, which has one. -/
theorem hash_repacked_sample :
    (computeNormalizedSourceHash sampleAnticopy sampleMembers).isSome ∧
      computeNormalizedSourceHash sampleAnticopy repackedMembers =
        computeNormalizedSourceHash sampleAnticopy sampleMembers := by
  have hspaced : Edit ([] ++ kitText) ([] ++ ([' '] ++ kitText)) :=
    @Edit.spaces [] kitText [' '] (by decide) (by simp)
  have hcommented : Edit (sampleHead ++ sampleTail) (sampleHead ++ ("/* \" */".toList ++ sampleTail)) :=
    @Edit.blockComment sampleHead sampleTail " \" ".toList (by decide) (by decide)
  have hkit := @Repack.edit [] [⟨"src/a.rs", sampleHead ++ sampleTail⟩] "kit.py" _ _ hspaced
  have hrenamed := @Repack.rename [⟨"kit.py", [] ++ ([' '] ++ kitText)⟩] [] "src/a.rs" "c.rs"
    (sampleHead ++ sampleTail) (by decide)
  have hown := @Repack.edit [⟨"kit.py", [] ++ ([' '] ++ kitText)⟩] [] "c.rs" _ _ hcommented
  have hadded := @Repack.addEmpty [] [⟨"kit.py", [] ++ ([' '] ++ kitText)⟩,
    ⟨"c.rs", sampleHead ++ ("/* \" */".toList ++ sampleTail)⟩] "b.rs"
  refine ⟨by decide +kernel, hash_repacked kitNormalized_sampleAnticopy
    ((((Relation.ReflTransGen.single hkit).tail hrenamed).tail hown).tail hadded) ?_ ?_⟩
  · exact ⟨by decide, by decide +kernel, by decide +kernel⟩
  · exact ⟨by decide, by decide +kernel, by decide +kernel⟩

end DittoSubnet.Similarity
