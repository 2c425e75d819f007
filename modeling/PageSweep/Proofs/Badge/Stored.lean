import Mathlib.Tactic.Common
import PageSweep.Badge
import PageSweep.Proofs.Number.Numeral

/-!
# A stored badge is read back

A badge is stored as one line of YAML, a key with a number. The key is the same for all badges, so reading it is a
matter of evaluation; all that differs is the row of digits, and a digit is no mark, no blank and no break, so the
reader goes over the row as over one plain scalar. That is typed by what is asked for, and what is asked for is a count.

* `plain?_digits`: the row of digits is one scalar.
* `tokens?_count`, `read_count`: the tokens and the root node of what is stored.
* `readNode_single`, `readYaml_eq_ok`: reading a record of one entry.
* `Badge.readYaml_writeYaml`: the whole way.
-/

namespace PageSweep

open Number

namespace Yaml

/-! ### The scalar of a number -/

/-- The marks that mean something where a token begins, or inside of a plain scalar. -/
def marks : List Char :=
  ['%', '[', '\x7b', ']', '\x7d', ',', '-', '?', ':', '*', '&', '!', '|', '>', '\'', '"', '#', '@', '\x60']

/-- A digit is none of the characters that mean something by their place. -/
theorem digit_cases {d : Char} (hd : d.isDigit = true) : isBreak d = false ∧ isBlankChar d = false ∧
    isAllowed d = true ∧ startMarks.contains d = false ∧ ∀ m ∈ marks, (d == m) = false := by
  have hdigit := isDigit_cases hd
  simp only [String.reduceToList, List.mem_cons, List.not_mem_nil, or_false] at hdigit
  rcases hdigit with rfl | rfl | rfl | rfl | rfl | rfl | rfl | rfl | rfl | rfl <;>
    exact ⟨rfl, rfl, rfl, rfl, by simp [marks]⟩

/-- The reader of a plain scalar goes over digits. -/
theorem plainFrom_digits {ds : List Char} (hds : ∀ d ∈ ds, d.isDigit = true) (low fuel : Nat)
    (read cs : List Char) (offset line column : Nat) :
    ∃ offset' column', plainFrom false low (fuel + ds.length) read (.blanks []) ⟨ds ++ cs, offset, line, column⟩ =
      plainFrom false low fuel (ds.reverse ++ read) (.blanks []) ⟨cs, offset', line, column'⟩ := by
  induction ds generalizing read offset column with
  | nil => exact ⟨offset, column, rfl⟩
  | cons d ds ih =>
    obtain ⟨hbreak, hblank, -, -, hmarks⟩ := digit_cases (hds d List.mem_cons_self)
    have hcolon : (d == ':') = false := hmarks ':' (by decide)
    obtain ⟨offset', column', hrest⟩ := ih (fun e he => hds e (List.mem_cons_of_mem _ he)) (d :: read)
      (offset + d.utf8Size) (column + 1)
    refine ⟨offset', column', ?_⟩
    rw [List.reverse_cons, List.append_assoc, List.singleton_append, ← hrest]
    simp [plainFrom, endsPlain, hbreak, hblank, hcolon, Gap.hasBreak, Gap.isEmpty, Gap.fold, Place.next]

/-- **The digits at the end of a line are one scalar**, and the reader is at the end of the text then. -/
theorem plain?_digits (n low offset line column : Nat) :
    ∃ offset', plain? false low ⟨digits n ++ ['\n'], offset, line, column⟩ =
      some (natText n, true, ⟨[], offset', line + 1, 0⟩) := by
  obtain ⟨offset', column', hread⟩ := plainFrom_digits (fun d hd => isDigit_of_mem_digits (n := n) hd) low 2 []
    ['\n'] offset line column
  have hfuel : (digits n ++ ['\n']).length + 1 = 2 + (digits n).length := by
    rw [List.length_append, List.length_singleton]
    omega
  have hstarts : startsPlain false (digits n ++ ['\n']) = true := by
    cases hds : digits n with
    | nil => exact absurd hds (digits_ne_nil n)
    | cons d ds =>
      have hmem : d ∈ digits n := hds ▸ List.mem_cons_self
      obtain ⟨hbreak, hblank, -, hstart, hmarks⟩ := digit_cases (isDigit_of_mem_digits hmem)
      simp only [List.cons_append, startsPlain, hmarks '-' (by decide), hmarks '?' (by decide),
        hmarks ':' (by decide), isBlankOrBreak, hblank, hbreak, hstart]
      rfl
  refine ⟨offset' + 1, ?_⟩
  rw [plain?, if_pos hstarts, hfuel, hread, List.append_nil]
  have hend : plainFrom false low 2 (digits n).reverse (.blanks []) ⟨['\n'], offset', line, column'⟩ =
      some ((digits n).reverse, .breaks (some '\n') [], ⟨[], offset' + 1, line + 1, 0⟩) := rfl
  rw [hend, Option.map_some]
  simp only [List.reverse_reverse]
  rfl

/-! ### The tokens of a stored badge -/

/-- The one line of a badge that is stored. -/
def countLine (n : Nat) : List Char := "total_counter: ".toList ++ (digits n ++ ['\n'])

/-- The key has been read. -/
def keyRead (cs : List Char) : Layout :=
  ⟨⟨':' :: ' ' :: cs, 13, 0, 13⟩, [.scalar .plain "total_counter"], [], false, some ⟨0, false, 0, 0, 0⟩, []⟩

/-- The colon has been read, and the map was opened before the key. -/
def colonRead (cs : List Char) : Layout :=
  ⟨⟨' ' :: cs, 14, 0, 14⟩, [.value, .scalar .plain "total_counter", .key, .mapStart], [0], false, none, []⟩

/-- The blank has been passed over. -/
def numberNext (cs : List Char) : Layout := { colonRead cs with place := ⟨cs, 15, 0, 15⟩ }

/-- The number has been read. -/
def numberRead (n offset : Nat) : Layout :=
  ⟨⟨[], offset, 1, 0⟩, [.scalar .plain (natText n), .value, .scalar .plain "total_counter", .key, .mapStart], [0],
    true, none, []⟩

theorem advance?_colonRead (n : Nat) :
    (colonRead (digits n ++ ['\n'])).advance? = some (numberNext (digits n ++ ['\n'])) := by
  cases hds : digits n with
  | nil => exact absurd hds (digits_ne_nil n)
  | cons d ds =>
    have hmem : d ∈ digits n := hds ▸ List.mem_cons_self
    obtain ⟨hbreak, hblank, -, -, hmarks⟩ := digit_cases (isDigit_of_mem_digits hmem)
    -- The reader stops at the first digit.
    have hstop : ∀ cs, Place.skipFrom false 15 0 15 false false (d :: cs) = (false, ⟨d :: cs, 15, 0, 15⟩) := by
      intro cs
      have hreturn : d ≠ '\r' := by
        rintro rfl
        exact absurd hbreak (by decide)
      simp only [isBlankChar, Bool.or_eq_false_iff] at hblank
      simp [Place.skipFrom, hreturn, hbreak, hblank, hmarks '#' (by decide)]
    show (Layout.refresh? ⟨(Place.skipFrom false 15 0 15 false false (d :: (ds ++ ['\n']))).2, _, _,
      (Place.skipFrom false 15 0 15 false false (d :: (ds ++ ['\n']))).1, _, _⟩ >>= _) = _
    rw [hstop]
    rfl

theorem token?_numberNext (n : Nat) : ∃ c cs offset, digits n ++ ['\n'] = c :: cs ∧
    (numberNext (digits n ++ ['\n'])).token? c = some (numberRead n offset) := by
  cases hds : digits n with
  | nil => exact absurd hds (digits_ne_nil n)
  | cons d ds =>
    have hmem : d ∈ digits n := hds ▸ List.mem_cons_self
    obtain ⟨-, -, -, -, hmarks⟩ := digit_cases (isDigit_of_mem_digits hmem)
    obtain ⟨offset, hplain⟩ := plain?_digits n 1 15 0 15
    rw [hds] at hplain
    refine ⟨d, ds ++ ['\n'], offset, rfl, ?_⟩
    have htoken : (numberNext (d :: ds ++ ['\n'])).token? d = (numberNext (d :: ds ++ ['\n'])).plain? := by
      simp only [marks, List.mem_cons, forall_eq_or_imp] at hmarks
      simp [Layout.token?, hmarks, numberNext, Place.isAtMark]
    rw [htoken]
    show (plain? false 1 ⟨d :: ds ++ ['\n'], 15, 0, 15⟩ >>= _) = _
    rw [hplain]
    rfl

/-- One token is read after the other. -/
theorem tokensFrom_succ {fuel : Nat} {l l' l'' : Layout} {c : Char} {cs : List Char} (hl : l.advance? = some l')
    (hc : l'.place.rest = c :: cs) (hl' : l'.token? c = some l'') :
    Layout.tokensFrom (fuel + 1) l = Layout.tokensFrom fuel l'' := by
  simp [Layout.tokensFrom, hl, hc, hl']

/-- **The tokens of a stored badge** are those of a map with one entry. -/
theorem tokens?_count (n : Nat) : tokens? (String.ofList (countLine n)) =
    some [.mapStart, .key, .scalar .plain "total_counter", .value, .scalar .plain (natText n), .blockEnd] := by
  have hallowed : (countLine n).all isAllowed = true := by
    unfold countLine
    rw [List.all_append, List.all_append, Bool.and_eq_true, Bool.and_eq_true]
    exact ⟨by decide, List.all_eq_true.2 fun d hd => (digit_cases (isDigit_of_mem_digits hd)).2.2.1, by decide⟩
  obtain ⟨c, cs, offset, hcs, hnumber⟩ := token?_numberNext n
  have hblank := advance?_colonRead n
  rw [tokens?, String.toList_ofList, if_pos hallowed]
  unfold countLine
  generalize digits n ++ ['\n'] = ds at *
  have hstart : (Layout.start ("total_counter: ".toList ++ ds)).advance? =
      some (Layout.start ("total_counter: ".toList ++ ds)) := rfl
  have hkey : (Layout.start ("total_counter: ".toList ++ ds)).token? 't' = some (keyRead ds) := rfl
  have hnext : (keyRead ds).advance? = some (keyRead ds) := rfl
  have hcolon : (keyRead ds).token? ':' = some (colonRead ds) := rfl
  show Layout.tokensFrom (ds.length + 11 + 1 + 1 + 1 + 1 + 1) _ = _
  rw [tokensFrom_succ hstart rfl hkey, tokensFrom_succ hnext rfl hcolon, tokensFrom_succ hblank hcs hnumber]
  rfl

/-- The root node of a stored badge. -/
def countRoot (n : Nat) : Node := .map [(.scalar .plain none "total_counter", .scalar .plain none (natText n))]

theorem read_count (n : Nat) : Yaml.read (String.ofList (countLine n)) = some (countRoot n) := by
  rw [Yaml.read, tokens?_count]
  rfl

/-! ### What is asked for -/

/-- **A number that was written is read as a count.** -/
theorem countOf?_natText (n : Nat) : countOf? (natText n) = some n := by
  have hread := readDigits?_digits n
  unfold countOf? natText
  rw [String.toList_ofList]
  cases hds : digits n with
  | nil => exact absurd hds (digits_ne_nil n)
  | cons d ds =>
    rw [hds] at hread
    by_cases hn : n = 0
    · subst hn
      rw [show digits 0 = ['0'] from rfl] at hds
      cases hds
      rfl
    · have hmem : d ∈ digits n := hds ▸ List.mem_cons_self
      have hzero : d ≠ '0' := head_digits hn d (by rw [hds]; rfl)
      have hplus : d ≠ '+' := by
        rintro rfl
        exact absurd (isDigit_of_mem_digits hmem) (by decide)
      -- No sign and no zero stands in front, so there is no base mark either.
      split
      · rename_i heq
        exact absurd (List.cons.inj heq).1 hplus
      · simp only
        split
        iterate 5
          rename_i heq
          exact absurd (List.cons.inj heq).1 hzero
        exact hread

end Yaml

namespace Shape

variable {title : String} {fields : Fields} {room left : Nat} {outer : Shape}

theorem readNode_count (max : Nat) (name : String) (style : Yaml.ScalarStyle) (tag? : Option (List Char))
    (s : String) : readNode [] (room + 1) outer (.count max name) (.scalar style tag? s) =
      (liftM (ofScalar? style tag? s (.count max name)) : Reading Datum) := by
  delta Shape.readNode
  rfl

theorem readNode_record (anchors : List (Nat × Yaml.Node)) (entries : List (Yaml.Node × Yaml.Node)) :
    readNode anchors (room + 1) outer (.record title fields) (.map entries) = (do
      let kept ← entries.foldlM (fun kept (k, v) => do
        match field? fields (← readText? anchors k) with
        | none => return kept
        | some f =>
          if (Entries.get? (fieldName f) kept).isSome then failure
          else
            let value ← readNode anchors room (record title fields) f.2.2 v
            return (fieldName f, value) :: kept) []
      if (missing? fields (kept.map (·.1))).isSome then failure
      else return .map kept.reverse : Reading Datum) := by
  delta Shape.readNode
  rfl

/-- **Reading a record of one entry.** -/
theorem readNode_single {f : List String × Bool × Shape} {key : String} {v : Yaml.Node} {d : Datum}
    (hf : field? fields key = some f) (hall : missing? fields [fieldName f] = none)
    (hv : (readNode [] room (.record title fields) f.2.2 v).run left = some (d, left)) :
    (readNode [] (room + 1) outer (.record title fields) (.map [(.scalar .plain none key, v)])).run left =
      some (.map [(fieldName f, d)], left) := by
  have hkey : readText? [] (.scalar .plain none key) = pure key := rfl
  simp only [readNode_record, List.foldlM_cons, List.foldlM_nil, hkey, pure_bind, bind_pure, hf, Entries.get?,
    Option.isSome_none, Bool.false_eq_true, if_false, StateT.run_bind, hv, bind_assoc]
  simp [hall]

/-- A text is read if its root is. -/
theorem readYaml_eq_ok {shape : Shape} {text : String} {root : Yaml.Node} {kept : Datum}
    (hroot : Yaml.read text = some root) (hkept : (readNode root.anchors depthLimit shape shape root).run
      (aliasLimit * root.size) = some (kept, left)) : shape.readYaml text = .ok kept := by
  have hrun : (readNode root.anchors depthLimit shape shape root).run' (aliasLimit * root.size) = some kept :=
    congrArg (Prod.fst <$> ·) hkept
  rw [readYaml, hroot]
  simp only [hrun]

end Shape

namespace Badge

open Yaml

theorem writeYaml_eq (b : Badge) : b.writeYaml = String.ofList (countLine b.total) := by
  have hkey : isSimpleKey "total_counter" = true := by decide +kernel
  have hscalar : scalarChars 2 "total_counter" = "total_counter".toList := by decide +kernel
  have htext : intText (b.total : Int) = natText b.total := by
    rw [intText, if_neg (by omega), Int.natAbs_natCast]
  have hblock : blockChars 0 b.toJson = "total_counter: ".toList ++ digits b.total := by
    simp only [Badge.toJson, Json.ofNat, blockChars, fieldChars, valueChars, onLines, hkey, hscalar, if_true, htext,
      natText, String.toList_ofList]
    rfl
  have hlast : (blockChars 0 b.toJson).getLast?.any isBreak = false := by
    rw [hblock, List.getLast?_append, Option.or_of_isSome (by simp [digits_ne_nil]), Option.any_eq_false_iff_get]
    intro h
    have hmem := List.mem_of_getLast? (Option.some_get h).symm
    exact (digit_cases (isDigit_of_mem_digits hmem)).1
  rw [hblock] at hlast
  rw [Badge.writeYaml, Yaml.write]
  simp only [hblock, hlast, Bool.false_eq_true, if_false, List.append_assoc]
  rfl

theorem ofNat_total (b : Badge) : ofNat b.total = b := by
  cases b with
  | mk total hle => rw [ofNat, Badge.mk.injEq, Nat.min_eq_left hle]

/-- **A stored badge is read back**, whatever its total is. -/
theorem readYaml_writeYaml (b : Badge) : readYaml b.writeYaml = .ok b := by
  have hscalar : Shape.ofScalar? .plain none (natText b.total) (.count maxCount "u64") = some (.int b.total) := by
    have hcount : (countOf? (natText b.total)).filter (· ≤ maxCount) = some b.total := by
      rw [countOf?_natText, Option.filter_some, if_pos (by simpa using b.total_le)]
    simp only [Shape.ofScalar?, Shape.isTyped, if_true, hcount]
    rfl
  have hnode (left : Nat) : (Shape.readNode [] Shape.depthLimit shape shape (countRoot b.total)).run left =
      some (.map [("total_counter", .int b.total)], left) := by
    refine Shape.readNode_single (f := (["total_counter"], false, .count maxCount "u64")) rfl rfl ?_
    rw [Shape.readNode_count, hscalar]
    rfl
  have hroot : Yaml.read b.writeYaml = some (countRoot b.total) := by rw [writeYaml_eq, read_count]
  have hread : shape.readYaml b.writeYaml = .ok (.map [("total_counter", .int b.total)]) :=
    Shape.readYaml_eq_ok hroot (hnode _)
  rw [readYaml, hread]
  exact congrArg Except.ok (ofNat_total b)

end Badge

end PageSweep
