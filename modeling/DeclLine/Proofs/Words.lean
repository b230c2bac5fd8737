import DeclLine.Proofs.WordSpans
import DeclLine.Token

/-!
Words and what they become. The words of a line are its pieces between blanks. A word is reserved
if it writes a terminal in some letter case, and an identifier if it has the shape of a name and
writes none. A declaration in words is a declaration in tokens.
-/
namespace DeclLine

namespace Text

/-- The pieces of a line between its blanks. -/
def pieces (line : String) : List String :=
  ((line.toList.splitOnP (Blank ·)).filter (!·.isEmpty)).map String.ofList

theorem map_text_closeWord (offset : Nat) (run : List Char) (later : List Word) :
    (closeWord offset run later).map Word.text =
      (([run].filter (!·.isEmpty)).map String.ofList) ++ later.map Word.text := by
  cases run <;> rfl

/-- The open run is the first piece, and the words after it are the later ones. -/
theorem splitOnP_scanWords (offset : Nat) (cs : List Char) :
    ∃ later, cs.splitOnP (Blank ·) = (scanWords offset cs).1 :: later ∧
      (scanWords offset cs).2.map Word.text =
        (later.filter (!·.isEmpty)).map String.ofList := by
  induction cs generalizing offset with
  | nil => exact ⟨[], rfl, rfl⟩
  | cons c cs ih =>
      obtain ⟨later, split, texts⟩ := ih (offset + c.utf8Size)
      rw [List.splitOnP_cons_eq_if_modifyHead, split]
      by_cases blank : Blank c
      · rw [scanWords_blank blank, if_pos (decide_eq_true blank)]
        refine ⟨_, rfl, ?_⟩
        rw [map_text_closeWord, texts, ← List.map_append, ← List.filter_append]
        rfl
      · rw [scanWords_letter blank, if_neg (by simpa using blank)]
        exact ⟨later, rfl, texts⟩

theorem map_text_words (line : String) : (words line).map Word.text = pieces line := by
  obtain ⟨later, split, texts⟩ := splitOnP_scanWords 0 line.toList
  rw [words, map_text_closeWord, texts, pieces, split, ← List.map_append, ← List.filter_append]
  rfl

end Text

namespace Lexicon

/-- The word is the name of the terminal but for the case of ASCII letters. -/
def Writes (word : String) (t : Terminal) : Prop :=
  word.toList.map Char.toLower = t.name.toList.map Char.toLower

instance (word : String) (t : Terminal) : Decidable (Writes word t) :=
  inferInstanceAs (Decidable (_ = _))

/-- A character of `[A-Za-z_]`. -/
def Leads (c : Char) : Prop :=
  'A' ≤ c ∧ c ≤ 'Z' ∨ 'a' ≤ c ∧ c ≤ 'z' ∨ c = '_'

/-- A character of `[A-Za-z0-9_]`. -/
def Continues (c : Char) : Prop :=
  Leads c ∨ '0' ≤ c ∧ c ≤ '9'

/-- The word matches `[A-Za-z_][A-Za-z0-9_]*`. -/
def Shaped (word : String) : Prop :=
  ∃ c cs, word.toList = c :: cs ∧ Leads c ∧ ∀ d ∈ cs, Continues d

/-- The word has the shape of a name and is no reserved word. -/
def Names (word : String) : Prop :=
  Shaped word ∧ ∀ t, ¬ Writes word t

theorem between_iff {low high c : Char} :
    (decide (c.val ≥ low.val) && decide (c.val ≤ high.val)) = true ↔ low ≤ c ∧ c ≤ high :=
  Bool.and_eq_true_iff.trans (and_congr decide_eq_true_iff decide_eq_true_iff)

theorem isNameStart_iff {c : Char} : isNameStart c = true ↔ Leads c := by
  have upper : c.isUpper = true ↔ 'A' ≤ c ∧ c ≤ 'Z' := decide_eq_true_iff
  have lower : c.isLower = true ↔ 'a' ≤ c ∧ c ≤ 'z' := between_iff
  change ((c.isUpper || c.isLower) || c == '_') = true ↔ _
  rw [Bool.or_eq_true, Bool.or_eq_true, upper, lower, beq_iff_eq, or_assoc, Leads]

theorem isNamePart_iff {c : Char} : isNamePart c = true ↔ Continues c := by
  have digit : c.isDigit = true ↔ '0' ≤ c ∧ c ≤ '9' := between_iff
  change ((c.isAlpha || c.isDigit) || c == '_') = true ↔ _
  rw [Continues, ← isNameStart_iff, isNameStart, Bool.or_eq_true, Bool.or_eq_true,
    Bool.or_eq_true, digit, or_right_comm]

theorem isNameLike_iff {word : String} : isNameLike word = true ↔ Shaped word := by
  unfold isNameLike Shaped
  cases word.toList with
  | nil => simp
  | cons c cs =>
      rw [Bool.and_eq_true, isNameStart_iff, List.all_eq_true]
      simp only [isNamePart_iff]
      constructor
      · intro ⟨leads, continues⟩
        exact ⟨c, cs, rfl, leads, continues⟩
      · intro ⟨d, ds, split, leads, continues⟩
        cases split
        exact ⟨leads, continues⟩

theorem Writes.unique {word : String} {t u : Terminal} (ht : Writes word t)
    (hu : Writes word u) : t = u := by
  have same := ht.symm.trans hu
  cases t <;> cases u <;> first | rfl | exact absurd same (by decide)

theorem reserved?_eq_some_iff {word : String} {t : Terminal} :
    reserved? word = some t ↔ Writes word t := by
  constructor
  · intro h
    have := List.find?_some h
    exact (of_decide_eq_true this).symm
  · intro h
    cases found : reserved? word with
    | none =>
        have := List.find?_eq_none.mp found t t.mem_all
        exact absurd h.symm (by simpa using this)
    | some u =>
        have := List.find?_some found
        rw [h.unique (of_decide_eq_true this).symm]

theorem reserved?_eq_none_iff {word : String} :
    reserved? word = none ↔ ∀ t, ¬ Writes word t := by
  rw [Option.eq_none_iff_forall_ne_some]
  exact forall_congr' fun t => not_congr reserved?_eq_some_iff

theorem isIdentifier_iff {word : String} : isIdentifier word = true ↔ Names word := by
  rw [isIdentifier, Bool.and_eq_true, isNameLike_iff, Option.isNone_iff_eq_none,
    reserved?_eq_none_iff, Names]

instance (word : String) : Decidable (Names word) :=
  decidable_of_iff _ isIdentifier_iff

theorem Names.ne_empty {word : String} (h : Names word) : word ≠ "" := by
  rintro rfl
  obtain ⟨c, cs, chars, _⟩ := h.1
  cases chars

theorem eq_hash_of_toLower {c : Char} (h : c.toLower = '#') : c = '#' := by
  by_cases upper : c.val ≥ 'A'.val ∧ c.val ≤ 'Z'.val
  · have low := UInt32.le_iff_toNat_le.mp upper.1
    have high := UInt32.le_iff_toNat_le.mp upper.2
    have shifted := congrArg (fun c => c.val.toNat) ((dif_pos upper).symm.trans h)
    simp only [UInt32.toNat_add] at shifted
    simp at low high shifted
    omega
  · exact (dif_neg upper).symm.trans h

theorem writes_endMark_iff {word : String} : Writes word .endMark ↔ word = "#" := by
  constructor
  · intro h
    have single : word.toList.map Char.toLower = ['#'] := h
    obtain ⟨c, chars, lower⟩ := List.map_eq_singleton_iff.mp single
    rw [← String.ofList_toList (s := word), chars, eq_hash_of_toLower lower]
  · rintro rfl
    rfl

/-- The line ends here, or goes on with the end marker. -/
def Closed (rest : List String) : Prop :=
  rest = [] ∨ rest.head? = some "#"

instance (rest : List String) : Decidable (Closed rest) :=
  inferInstanceAs (Decidable (_ ∨ _))

/-- Words that declare a name: a type keyword, perhaps the marker, the name, and the end. -/
inductive Declares : List String → Terminal → String → Prop
  | plain {word name : String} {rest : List String} {k : Terminal}
      (type : k.isTypeKeyword = true) (writes : Writes word k) (names : Names name)
      (closed : Closed rest) : Declares (word :: name :: rest) k name
  | marked {word marker name : String} {rest : List String} {k : Terminal}
      (type : k.isTypeKeyword = true) (writes : Writes word k) (marks : Writes marker .ident)
      (names : Names name) (closed : Closed rest) :
      Declares (word :: marker :: name :: rest) k name

theorem Declares.ne_empty {words : List String} {k : Terminal} {name : String}
    (h : Declares words k name) : name ≠ "" := by
  cases h with
  | plain _ _ names _ | marked _ _ _ names _ => exact names.ne_empty

end Lexicon

namespace Token

open Lexicon

/-- Tokens that declare a name: a type keyword, the marker with the name, and the end. -/
inductive Declare : List Token → Terminal → String → Prop
  | intro {type marker name last : Token} {rest : List Token} {k : Terminal}
      (isType : k.isTypeKeyword = true) (typeKind : type.kind = .terminal k)
      (markerKind : marker.kind = .terminal .ident) (nameKind : name.kind = .lexeme)
      (lastKind : last.kind = .terminal .endMark) :
      Declare (type :: marker :: name :: last :: rest) k name.text

section Classified

variable {source : String} {last : Token}

/-- The tokens of words and the end of the line, by what the first word is. -/
inductive View (source : String) (last : Token) : Bool → List Text.Word → List Token → Prop
  | stop {marked : Bool} : View source last marked [] [last]
  | reserved {marked : Bool} {w : Text.Word} {ws : List Text.Word} {t : Terminal}
      (writes : Writes w.text t) :
      View source last marked (w :: ws)
        (ofWord source (.terminal t) w :: (ofWords source (t = .ident) ws ++ [last]))
  | name {w : Text.Word} {ws : List Text.Word} (names : Names w.text) :
      View source last false (w :: ws)
        (ofWord source (.terminal .ident) w :: ofWord source .lexeme w ::
          (ofWords source false ws ++ [last]))
  | markedName {w : Text.Word} {ws : List Text.Word} (names : Names w.text) :
      View source last true (w :: ws)
        (ofWord source .lexeme w :: (ofWords source false ws ++ [last]))
  | unknown {marked : Bool} {w : Text.Word} {ws : List Text.Word} :
      View source last marked (w :: ws)
        (ofWord source .unknown w :: (ofWords source false ws ++ [last]))

theorem view (source : String) (last : Token) (marked : Bool) (ws : List Text.Word) :
    View source last marked ws (ofWords source marked ws ++ [last]) := by
  cases ws with
  | nil => exact .stop
  | cons w ws =>
      rw [ofWords]
      cases h : reserved? w.text with
      | some t => exact .reserved (reserved?_eq_some_iff.mp h)
      | none =>
          by_cases names : isIdentifier w.text = true
          · simp only [names, if_true]
            cases marked with
            | true => exact .markedName (isIdentifier_iff.mp names)
            | false => exact .name (isIdentifier_iff.mp names)
          · simp only [names]
            exact .unknown

variable {ws : List Text.Word} {token : Token} {rest : List Token}

theorem keyword_front {k : Terminal} (h : ofWords source false ws ++ [last] = token :: rest)
    (lastKind : last.kind = .terminal .endMark) (isType : k.isTypeKeyword = true)
    (kind : token.kind = .terminal k) :
    ∃ w ws', ws = w :: ws' ∧ Writes w.text k ∧ rest = ofWords source false ws' ++ [last] := by
  have v := view source last false ws
  rw [h] at v
  cases v with
  | stop =>
      rw [lastKind] at kind
      cases kind
      cases isType
  | reserved writes =>
      cases kind
      have notIdent : k ≠ .ident := by
        rintro rfl
        cases isType
      exact ⟨_, _, rfl, writes, by simp [notIdent]⟩
  | name names =>
      cases kind
      cases isType
  | unknown => cases kind

theorem marker_front (h : ofWords source false ws ++ [last] = token :: rest)
    (lastKind : last.kind = .terminal .endMark) (kind : token.kind = .terminal .ident) :
    (∃ w ws', ws = w :: ws' ∧ Writes w.text .ident ∧
      rest = ofWords source true ws' ++ [last]) ∨
    ∃ w ws', ws = w :: ws' ∧ Names w.text ∧
      rest = ofWord source .lexeme w :: (ofWords source false ws' ++ [last]) := by
  have v := view source last false ws
  rw [h] at v
  cases v with
  | stop =>
      rw [lastKind] at kind
      cases kind
  | reserved writes =>
      cases kind
      exact .inl ⟨_, _, rfl, writes, rfl⟩
  | name names => exact .inr ⟨_, _, rfl, names, rfl⟩
  | unknown => cases kind

theorem lexeme_front (h : ofWords source true ws ++ [last] = token :: rest)
    (lastKind : last.kind = .terminal .endMark) (kind : token.kind = .lexeme) :
    ∃ w ws', ws = w :: ws' ∧ Names w.text ∧ token.text = w.text ∧
      rest = ofWords source false ws' ++ [last] := by
  have v := view source last true ws
  rw [h] at v
  cases v with
  | stop =>
      rw [lastKind] at kind
      cases kind
  | reserved _ | unknown => cases kind
  | markedName names => exact ⟨_, _, rfl, names, rfl, rfl⟩

theorem end_front (h : ofWords source false ws ++ [last] = token :: rest)
    (kind : token.kind = .terminal .endMark) : Closed (ws.map Text.Word.text) := by
  have v := view source last false ws
  rw [h] at v
  cases v with
  | stop => exact .inl rfl
  | reserved writes =>
      cases kind
      exact .inr (congrArg some (writes_endMark_iff.mp writes))
  | name _ | unknown => cases kind

theorem declares_of_declare {k : Terminal} {name : String}
    (lastKind : last.kind = .terminal .endMark)
    (h : Declare (ofWords source false ws ++ [last]) k name) :
    Declares (ws.map Text.Word.text) k name := by
  generalize tokens : ofWords source false ws ++ [last] = ts at h
  obtain ⟨isType, typeKind, markerKind, nameKind, endKind⟩ := h
  obtain ⟨w, ws₁, rfl, writes, after⟩ := keyword_front tokens lastKind isType typeKind
  rcases marker_front after.symm lastKind markerKind with
    ⟨m, ws₂, rfl, marks, after⟩ | ⟨n, ws₂, rfl, names, after⟩
  · obtain ⟨n, ws₃, rfl, names, text, after⟩ := lexeme_front after.symm lastKind nameKind
    rw [text]
    exact .marked isType writes marks names (end_front after.symm endKind)
  · obtain ⟨rfl, closing⟩ := List.cons.inj after
    exact .plain isType writes names (end_front closing.symm endKind)

theorem ofWords_writes {w : Text.Word} {t : Terminal} (h : Writes w.text t) (marked : Bool) :
    ofWords source marked (w :: ws) =
      ofWord source (.terminal t) w :: ofWords source (t = .ident) ws := by
  rw [ofWords, reserved?_eq_some_iff.mpr h]

theorem ofWords_names {w : Text.Word} (h : Names w.text) (marked : Bool) :
    ofWords source marked (w :: ws) =
      (if marked then [] else [ofWord source (.terminal .ident) w]) ++
        ofWord source .lexeme w :: ofWords source false ws := by
  rw [ofWords, reserved?_eq_none_iff.mpr h.2]
  exact if_pos (isIdentifier_iff.mpr h)

theorem end_of_closed (source : String) (lastKind : last.kind = .terminal .endMark)
    (closed : Closed (ws.map Text.Word.text)) :
    ∃ token rest, ofWords source false ws ++ [last] = token :: rest ∧
      token.kind = .terminal .endMark := by
  cases ws with
  | nil => exact ⟨last, [], rfl, lastKind⟩
  | cons w ws =>
      rcases closed with none | hash
      · cases none
      · have writes := writes_endMark_iff.mpr (Option.some.inj hash)
        rw [ofWords_writes writes]
        exact ⟨_, _, rfl, rfl⟩

theorem declare_of_declares {k : Terminal} {name : String}
    (lastKind : last.kind = .terminal .endMark)
    (h : Declares (ws.map Text.Word.text) k name) :
    Declare (ofWords source false ws ++ [last]) k name := by
  generalize words : ws.map Text.Word.text = texts at h
  cases h with
  | plain isType writes names closed =>
      obtain ⟨w, ws₁, rfl, rfl, words₁⟩ := List.map_eq_cons_iff.mp words
      obtain ⟨n, ws₂, rfl, rfl, rfl⟩ := List.map_eq_cons_iff.mp words₁
      obtain ⟨token, rest, after, kind⟩ := end_of_closed source lastKind closed
      have notIdent : k ≠ .ident := by
        rintro rfl
        cases isType
      rw [ofWords_writes writes, decide_eq_false notIdent, ofWords_names names]
      change Declare (_ :: _ :: _ :: (ofWords source false ws₂ ++ [last])) k _
      rw [after]
      exact .intro isType rfl rfl rfl kind
  | marked isType writes marks names closed =>
      obtain ⟨w, ws₁, rfl, rfl, words₁⟩ := List.map_eq_cons_iff.mp words
      obtain ⟨m, ws₂, rfl, rfl, words₂⟩ := List.map_eq_cons_iff.mp words₁
      obtain ⟨n, ws₃, rfl, rfl, rfl⟩ := List.map_eq_cons_iff.mp words₂
      obtain ⟨token, rest, after, kind⟩ := end_of_closed source lastKind closed
      rw [ofWords_writes writes, ofWords_writes marks, ofWords_names names]
      change Declare (_ :: _ :: _ :: (ofWords source false ws₃ ++ [last])) k _
      rw [after]
      exact .intro isType rfl rfl rfl kind

end Classified

/-- A line declares a name in its words exactly when it does in its tokens. -/
theorem declare_ofLine_iff (source line : String) (k : Terminal) (name : String) :
    Declare (ofLine source line) k name ↔ Declares (Text.pieces line) k name := by
  rw [ofLine, ← Text.map_text_words]
  exact ⟨declares_of_declare rfl, declare_of_declares rfl⟩

end Token

end DeclLine
