import DittoSubnet.Kit.Digits
import DittoSubnet.Kit.Transducer
import DittoSubnet.Kit.Whitespace
import DittoSubnet.Platform.ScoreOrder
import DittoSubnet.Similarity.Sketch

/-!
# The normalized source hash

`compute_normalized_source_hash` of `ditto/api_server/fingerprint.py` over the regular files of a decoded archive, each
a path and a UTF-8 text. Comments are stripped by a scanner, lines are squeezed, and windows of `SHINGLE_LINES` lines
are hashed; what the starter kit contains is left out.

* `stripComments_eq_eval`: the scanner is a transducer with seven states.
* `squeezedLines_eq_eval`: so is the pass over the lines, whose state is the line it is in.
* `computeNormalizedSourceHash_eq`: within the guards the hash is that of the members' shingles together.
-/

namespace DittoSubnet.Similarity

open Kit
open Platform (hexDigit)

/-! ## Comments -/

/-- What follows the first `*/`; nothing when there is none. -/
def afterClose : List Char → List Char
  | '*' :: '/' :: rest => rest
  | _ :: rest => afterClose rest
  | [] => []

theorem length_afterClose_le (text : List Char) : (afterClose text).length ≤ text.length := by
  fun_induction afterClose text with
  | case1 rest => simp only [List.length_cons]; omega
  | case2 c rest _ ih => simp only [List.length_cons]; omega
  | case3 => exact le_refl _

/-- `_strip_comments` from one position on; `inString` is the scanner's flag. -/
def stripComments : Bool → List Char → List Char
  | _, [] => []
  | true, [c] => [c]
  | true, c :: d :: rest =>
    -- An escape keeps the next character verbatim.
    if c = '\\' then c :: d :: stripComments true rest else c :: stripComments (c ≠ '"') (d :: rest)
  | false, c :: rest =>
    if c = '"' then c :: stripComments true rest
    else if c = '/' ∧ rest.head? = some '/' then stripComments false (rest.dropWhile (· ≠ '\n'))
    else if c = '/' ∧ rest.head? = some '*' then stripComments false (afterClose rest.tail)
    else c :: stripComments false rest
termination_by _ text => text.length
decreasing_by
  all_goals simp only [List.length_cons]
  · omega
  · omega
  · omega
  · have := (List.dropWhile_sublist (fun c : Char => decide (c ≠ '\n')) (l := rest)).length_le
    omega
  · have := length_afterClose_le rest.tail
    rw [List.length_tail] at this
    omega
  · omega

/-- Where the scanner is: in code, behind a `/` that may open a comment, in a string or behind its `\`, in a line
comment, in a block comment or behind its `*`. -/
inductive Mode
  | code
  | slash
  | string
  | escape
  | line
  | block
  | star
  deriving DecidableEq, Repr

def Mode.next : Mode → Char → Mode
  | .code, c => if c = '"' then .string else if c = '/' then .slash else .code
  | .slash, c => if c = '/' then .line else if c = '*' then .block else if c = '"' then .string else .code
  | .string, c => if c = '\\' then .escape else if c = '"' then .code else .string
  | .escape, _ => .string
  | .line, c => if c = '\n' then .code else .line
  | .block, c => if c = '*' then .star else .block
  | .star, c => if c = '/' then .code else if c = '*' then .star else .block

def Mode.kept : Mode → Char → List Char
  | .code, c => if c = '/' then [] else [c]
  | .slash, c => if c = '/' ∨ c = '*' then [] else ['/', c]
  | .string, c => [c]
  | .escape, c => [c]
  | .line, c => if c = '\n' then [c] else []
  | .block, _ => []
  | .star, _ => []

def Mode.held : Mode → List Char
  | .slash => ['/']
  | _ => []

/-- The scanner, a character at a time. -/
def scanner : Transducer Mode Char Char where
  step := Mode.next
  emit := Mode.kept
  flush := Mode.held

@[simp] theorem scanner_step : scanner.step = Mode.next := rfl

@[simp] theorem scanner_emit : scanner.emit = Mode.kept := rfl

@[simp] theorem scanner_flush : scanner.flush = Mode.held := rfl

theorem eval_line (text : List Char) : scanner.eval .line text = scanner.eval .code (text.dropWhile (· ≠ '\n')) := by
  induction text with
  | nil => rfl
  | cons c text ih =>
    by_cases hc : c = '\n'
    · simp [Transducer.eval_cons, Mode.next, Mode.kept, hc]
    · rw [Transducer.eval_cons, List.dropWhile_cons_of_pos (by simpa using hc), ← ih]
      simp [Mode.next, Mode.kept, hc]

/-- Inside a block comment, and behind a `*` in it. -/
theorem eval_block (text : List Char) : scanner.eval .block text = scanner.eval .code (afterClose text) ∧
    scanner.eval .star text = scanner.eval .code (afterClose ('*' :: text)) := by
  induction text with
  | nil => simp [afterClose, Mode.held]
  | cons c text ih =>
    have hskip : c ≠ '*' → afterClose (c :: text) = afterClose text := by
      intro hc
      cases text with
      | nil => simp [afterClose]
      | cons d text => simp [afterClose, hc]
    have hstar : c ≠ '/' → afterClose ('*' :: c :: text) = afterClose (c :: text) := by
      intro hc
      simp [afterClose, hc]
    constructor
    · rw [Transducer.eval_cons]
      by_cases hc : c = '*'
      · rw [hc, ← ih.2]
        rfl
      · rw [hskip hc, ← ih.1]
        simp [Mode.next, Mode.kept, hc]
    · rw [Transducer.eval_cons]
      by_cases hc : c = '/'
      · simp [Mode.next, Mode.kept, hc, afterClose]
      · rw [hstar hc]
        by_cases hc' : c = '*'
        · rw [hc', ← ih.2]
          rfl
        · rw [hskip hc', ← ih.1]
          simp [Mode.next, Mode.kept, hc, hc']

/-- The scanner strips the comments. -/
theorem stripComments_eq_eval (inString : Bool) (text : List Char) :
    stripComments inString text = scanner.eval (if inString then .string else .code) text := by
  fun_induction stripComments inString text with
  | case1 inString =>
    cases inString <;> rfl
  | case2 c =>
    by_cases hc : c = '\\'
    · simp [Transducer.eval_cons, Mode.next, Mode.kept, Mode.held, hc]
    · by_cases hquote : c = '"' <;> simp [Transducer.eval_cons, Mode.next, Mode.kept, Mode.held, hc, hquote]
  | case3 d rest ih =>
    rw [ih]
    rfl
  | case4 c d rest hc ih =>
    rw [ih, if_pos rfl, Transducer.eval_cons (s := Mode.string)]
    by_cases hquote : c = '"' <;> simp [Mode.next, Mode.kept, hc, hquote]
  | case5 rest ih =>
    rw [ih]
    rfl
  | case6 c rest hquote hcomment ih =>
    obtain ⟨rfl, hhead⟩ := hcomment
    obtain ⟨rest, rfl⟩ := List.head?_eq_some_iff.1 hhead
    rw [ih, List.dropWhile_cons_of_pos (by decide), if_neg (by decide), ← eval_line]
    rfl
  | case7 c rest hquote hline hcomment ih =>
    obtain ⟨rfl, hhead⟩ := hcomment
    obtain ⟨rest, rfl⟩ := List.head?_eq_some_iff.1 hhead
    rw [ih, if_neg (by decide), List.tail_cons, ← (eval_block rest).1]
    rfl
  | case8 c rest hquote hline hblock ih =>
    rw [ih, if_neg (by decide), Transducer.eval_cons (a := c)]
    by_cases hc : c = '/'
    · subst hc
      -- No comment opens here, and the next character is read as in code.
      cases rest with
      | nil => rfl
      | cons d rest =>
        have hd : d ≠ '/' := fun h => hline ⟨rfl, by rw [h]; rfl⟩
        have hd' : d ≠ '*' := fun h => hblock ⟨rfl, by rw [h]; rfl⟩
        simp [Transducer.eval_cons, Mode.next, Mode.kept, hd, hd']
    · simp [Mode.next, Mode.kept, hquote, hc]

/-! ## Lines -/

/-- The characters at which `str.splitlines` ends a line. -/
def lineBoundary (c : Char) : Bool := c.toNat ∈ [10, 11, 12, 13, 0x1C, 0x1D, 0x1E, 0x85, 0x2028, 0x2029]

/-- `str.splitlines` inside the line `current`. -/
def splitLinesFrom (current : List Char) : List Char → List (List Char)
  | [] => if current = [] then [] else [current]
  | '\r' :: '\n' :: rest => current :: splitLinesFrom [] rest
  | c :: rest => if lineBoundary c then current :: splitLinesFrom [] rest else splitLinesFrom (current ++ [c]) rest

def splitLines (text : List Char) : List (List Char) := splitLinesFrom [] text

/-- `"".join(line.split())`. -/
def squeeze (line : List Char) : List Char := line.filter fun c => !strSpace c

/-- The lines that squeezing leaves something of. -/
def squeezedLines (text : List Char) : List (List Char) := ((splitLines text).map squeeze).filter (· ≠ [])

def joinLines (lines : List (List Char)) : List Char := ['\n'].intercalate lines

/-- `_normalized_source` of a text. -/
def normalizedSource (text : List Char) : List Char := joinLines (squeezedLines (stripComments false text))

/-- One line, when there is something in it. -/
def oneLine (line : List Char) : List (List Char) := if line = [] then [] else [line]

/-- The pass over the lines, a character at a time. -/
def liner : Transducer (List Char) Char (List Char) where
  step line c := if lineBoundary c then [] else if strSpace c then line else line ++ [c]
  emit line c := if lineBoundary c then oneLine line else []
  flush := oneLine

theorem filter_oneLine (line : List Char) (lines : List (List Char)) :
    (line :: lines).filter (· ≠ []) = oneLine line ++ lines.filter (· ≠ []) := by
  by_cases h : line = [] <;> simp [oneLine, h]

theorem squeezedLinesFrom_eq_eval (current text : List Char) :
    ((splitLinesFrom current text).map squeeze).filter (· ≠ []) = liner.eval (squeeze current) text := by
  fun_induction splitLinesFrom current text with
  | case1 => rfl
  | case2 current _ =>
    rw [List.map_singleton, filter_oneLine, List.filter_nil, List.append_nil]
    rfl
  | case3 current rest ih =>
    rw [List.map_cons, filter_oneLine, ih, Transducer.eval_cons, Transducer.eval_cons]
    simp [liner, lineBoundary, oneLine, squeeze]
  | case4 current c rest _ hc ih =>
    rw [List.map_cons, filter_oneLine, ih, Transducer.eval_cons]
    simp [liner, hc, squeeze]
  | case5 current c rest _ hc ih =>
    rw [ih, Transducer.eval_cons]
    by_cases hspace : strSpace c = true <;> simp [liner, hc, squeeze, hspace]

theorem squeezedLines_eq_eval (text : List Char) : squeezedLines text = liner.eval [] text :=
  squeezedLinesFrom_eq_eval [] text

/-! ## Shingles -/

/-- A SHA-256 digest. -/
abbrev Digest := Fin (2 ^ 256)

/-- The hash function and what the package ships: the digests of kit files, the starter history's shingles (sorted, so
that bisection finds exactly its members) and the identity of all this. -/
structure Anticopy where
  sha256 : List UInt8 → Digest
  kitExact : Finset Digest
  kitNormalized : Finset Digest
  reference : Finset ShingleHash
  corpusId : String

/-- A regular file of the archive. -/
structure Member where
  name : String
  text : List Char

def utf8 (text : List Char) : List UInt8 := text.flatMap String.utf8EncodeChar

def SHINGLE_LINES : ℕ := 4
def MIN_NSH_SHINGLES : ℕ := 4
def NSH_VERSION : ℕ := 2
def MAX_TOTAL_BYTES : ℕ := 64 * 1024 * 1024
def MAX_FILE_BYTES : ℕ := 8 * 1024 * 1024
def MAX_MEMBERS : ℕ := 20000

def GENERATED_LOCKFILES : List String :=
  ["Cargo.lock", "Gemfile.lock", "bun.lockb", "composer.lock", "flake.lock", "package-lock.json", "pnpm-lock.yaml",
    "poetry.lock", "uv.lock", "yarn.lock"]

/-- `path.rsplit("/", 1)[-1]`. -/
def baseName (path : String) : String := String.ofList (path.toList.reverse.takeWhile (· ≠ '/')).reverse

def isGeneratedLockfile (path : String) : Bool := baseName path ∈ GENERATED_LOCKFILES

/-- The top 64 bits of the digest. -/
def hashShingle (a : Anticopy) (shingle : List Char) : ShingleHash :=
  ⟨a.sha256 (utf8 shingle) / 2 ^ 192, by
    have h := (a.sha256 (utf8 shingle)).isLt
    exact Nat.div_lt_of_lt_mul (by rwa [← pow_add])⟩

def normalizedSourceShingles (a : Anticopy) (text : List Char) : List ShingleHash :=
  if normalizedSource text = [] then []
  else
    let lines := splitLines (normalizedSource text)
    if lines.length ≤ SHINGLE_LINES then [hashShingle a (joinLines lines)]
    else (List.range (lines.length - SHINGLE_LINES + 1)).map fun i =>
      hashShingle a (joinLines ((lines.drop i).take SHINGLE_LINES))

def isStockKitContent (a : Anticopy) (text : List Char) : Bool :=
  if a.sha256 (utf8 text) ∈ a.kitExact then true
  else if normalizedSource text = [] then false
  else a.sha256 (utf8 (normalizedSource text)) ∈ a.kitNormalized

def excludedFromFingerprints (a : Anticopy) (m : Member) : Bool :=
  isGeneratedLockfile m.name || isStockKitContent a m.text

/-! ## The hash -/

/-- The counters of the loop over the members, and the shingles so far. -/
structure ScanState where
  members : ℕ
  total : ℕ
  shingles : Finset ShingleHash

/-- One member; nothing when a guard trips. -/
def scanMember (a : Anticopy) (st : ScanState) (m : Member) : Option ScanState :=
  let size := (utf8 m.text).length
  if MAX_MEMBERS < st.members + 1 then none
  else if MAX_FILE_BYTES < size then none
  else if MAX_TOTAL_BYTES < st.total + size then none
  else if excludedFromFingerprints a m then some ⟨st.members + 1, st.total + size, st.shingles⟩
  else some ⟨st.members + 1, st.total + size, st.shingles ∪ (normalizedSourceShingles a m.text).toFinset⟩

def hexdigest (d : Digest) : String := String.ofList (digits hexDigit 16 64 d)

/-- `bytes.fromhex` of a shingle. -/
def shingleBytes (s : ShingleHash) : List UInt8 := digits UInt8.ofNat 256 8 s

def hashName (a : Anticopy) : String := "nsh" ++ toString NSH_VERSION ++ ":" ++ a.corpusId

/-- The hash of a set of shingles; nothing when too few are the miner's own. -/
def hashOfShingles (a : Anticopy) (shingles : Finset ShingleHash) : Option String :=
  let residual := shingles.filter (· ∉ a.reference)
  if residual.card < MIN_NSH_SHINGLES then none
  else
    let digest := a.sha256 (utf8 (hashName a ++ "\x00").toList ++ (sorted residual).flatMap shingleBytes)
    some (hashName a ++ ":" ++ hexdigest digest)

def computeNormalizedSourceHash (a : Anticopy) (members : List Member) : Option String :=
  match members.foldlM (scanMember a) ⟨0, 0, ∅⟩ with
  | none => none
  | some st => hashOfShingles a st.shingles

/-- What one member puts into the set. -/
def contribution (a : Anticopy) (m : Member) : Finset ShingleHash :=
  if excludedFromFingerprints a m then ∅ else (normalizedSourceShingles a m.text).toFinset

/-- What all members put into the set. -/
def contributions (a : Anticopy) (members : List Member) : Finset ShingleHash :=
  (members.map (contribution a)).foldr (· ∪ ·) ∅

theorem mem_contributions {a : Anticopy} {members : List Member} {x : ShingleHash} :
    x ∈ contributions a members ↔ ∃ m ∈ members, x ∈ contribution a m := by
  induction members with
  | nil => simp [contributions]
  | cons m members ih => simpa [contributions] using or_congr_right ih

def bytes (members : List Member) : ℕ := (members.map fun m => (utf8 m.text).length).sum

/-- The size and count guards. -/
structure WithinGuards (members : List Member) : Prop where
  count : members.length ≤ MAX_MEMBERS
  file : ∀ m ∈ members, (utf8 m.text).length ≤ MAX_FILE_BYTES
  total : bytes members ≤ MAX_TOTAL_BYTES

theorem scanMember_eq (a : Anticopy) {st : ScanState} {m : Member} (hcount : st.members + 1 ≤ MAX_MEMBERS)
    (hfile : (utf8 m.text).length ≤ MAX_FILE_BYTES) (htotal : st.total + (utf8 m.text).length ≤ MAX_TOTAL_BYTES) :
    scanMember a st m =
      some ⟨st.members + 1, st.total + (utf8 m.text).length, st.shingles ∪ contribution a m⟩ := by
  unfold scanMember contribution
  rw [if_neg (not_lt.2 hcount), if_neg (not_lt.2 hfile), if_neg (not_lt.2 htotal)]
  split <;> simp

/-- Inside the guards every member is read, and puts what it has into the set. -/
theorem foldlM_scanMember (a : Anticopy) (members : List Member) : ∀ st : ScanState,
    st.members + members.length ≤ MAX_MEMBERS → (∀ m ∈ members, (utf8 m.text).length ≤ MAX_FILE_BYTES) →
      st.total + bytes members ≤ MAX_TOTAL_BYTES →
        members.foldlM (scanMember a) st =
          some ⟨st.members + members.length, st.total + bytes members, st.shingles ∪ contributions a members⟩ := by
  induction members with
  | nil =>
    intro st _ _ _
    simp [bytes, contributions]
  | cons m members ih =>
    intro st hcount hfile htotal
    simp only [bytes, List.map_cons, List.sum_cons, List.length_cons] at hcount htotal ⊢
    rw [List.foldlM_cons, scanMember_eq a (by omega) (hfile m List.mem_cons_self) (by omega)]
    have hrest := ih ⟨st.members + 1, st.total + (utf8 m.text).length, st.shingles ∪ contribution a m⟩
      (by simp only; omega) (fun m' hm' => hfile m' (List.mem_cons_of_mem m hm')) (by simp only [bytes]; omega)
    simp only [bytes] at hrest
    rw [Option.bind_eq_bind, Option.bind_some, hrest]
    simp only [contributions, List.map_cons, List.foldr_cons, Finset.union_assoc, Nat.add_assoc, Nat.add_comm 1]

/-- Within the guards the hash is that of the members' shingles together. -/
theorem computeNormalizedSourceHash_eq (a : Anticopy) {members : List Member} (h : WithinGuards members) :
    computeNormalizedSourceHash a members = hashOfShingles a (contributions a members) := by
  unfold computeNormalizedSourceHash
  rw [foldlM_scanMember a members ⟨0, 0, ∅⟩ (by simpa using h.count) h.file (by simpa using h.total)]
  simp

end DittoSubnet.Similarity
