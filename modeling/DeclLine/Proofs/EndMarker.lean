import DeclLine.Proofs.Recognition
import DeclLine.Proofs.Scripts

/-!
Nothing behind an end marker is looked at. Two machines with the same tokens up to an end marker
take the same steps: no move takes the marker itself, since a keyword and a name are other tokens,
and a step that ends the run looks at the marker at most.
-/
namespace DeclLine

/-- The same tokens up to `last`, and any others behind it. -/
inductive SharedTo (last : Token) : List Token → List Token → Prop
  | here (after after' : List Token) : SharedTo last (last :: after) (last :: after')
  | there (token : Token) {ts us : List Token} (rest : SharedTo last ts us) :
      SharedTo last (token :: ts) (token :: us)

namespace SharedTo

variable {last token : Token} {ts us : List Token}

theorem append (before after after' : List Token) :
    SharedTo last (before ++ last :: after) (before ++ last :: after') := by
  induction before with
  | nil => exact .here after after'
  | cons token before ih => exact .there token ih

theorem head (h : SharedTo last (token :: ts) us) : ∃ us', us = token :: us' := by
  cases h with
  | here _ after' => exact ⟨after', rfl⟩
  | there _ _ => exact ⟨_, rfl⟩

theorem tail (h : SharedTo last (token :: ts) us) (other : token.kind ≠ last.kind) :
    ∃ us', us = token :: us' ∧ SharedTo last ts us' := by
  cases h with
  | here _ _ => exact absurd rfl other
  | there _ rest => exact ⟨_, rfl, rest⟩

end SharedTo

namespace Machine

/-- Machines that differ at most in what stands behind `last`. -/
structure Alike (last : Token) (m k : Machine) : Prop where
  shared : SharedTo last m.rest k.rest
  stack_eq : k.stack = m.stack
  pending_eq : k.pending = m.pending

variable {g : Grammar} {T : Table} {last : Token} {m m' k : Machine}

theorem Alike.turn (h : Alike last m k) {ts us : List Token} (shared : SharedTo last ts us)
    (items : List Symbol) : Alike last (m.turn ts items) (k.turn us items) where
  shared := shared
  stack_eq := by simp only [Machine.turn, h.stack_eq]
  pending_eq := h.pending_eq

theorem alike_start (before after after' : List Token) :
    Alike last (start (before ++ last :: after)) (start (before ++ last :: after')) :=
  ⟨.append before after after', rfl, rfl⟩

theorem Alike.accepting (h : Alike last m k) (accepting : m.Accepting) : k.Accepting := by
  obtain ⟨token, rest, below, input, kind, top⟩ := accepting
  obtain ⟨rest', input'⟩ := (input ▸ h.shared).head
  exact ⟨token, rest', below, input', kind, h.stack_eq ▸ top⟩

section Marked

variable (marks : last.kind = .terminal .endMark)
include marks

theorem Alike.move (h : Alike last m k) (move : Move T m m') :
    ∃ k', Move T k k' ∧ Alike last m' k' := by
  have shared := h.shared
  cases move with
  | @shift token rest t below input top kind keyword =>
      have other : token.kind ≠ last.kind := by
        rw [kind, marks]
        rintro ⟨⟩
        cases keyword
      obtain ⟨rest', input', later⟩ := (input ▸ shared).tail other
      have turned := h.turn later below
      exact ⟨_, .shift input' (h.stack_eq ▸ top) kind keyword, turned.shared, turned.stack_eq,
        congrArg (fun p : Pending => { p with keyword := some t }) h.pending_eq⟩
  | @name marker token rest below input top markerKind kind =>
      obtain ⟨front, input', next⟩ := (input ▸ shared).tail (by simp [markerKind, marks])
      obtain ⟨rest', rfl, later⟩ := next.tail (by simp [kind, marks])
      have turned := h.turn later below
      exact ⟨_, .name input' (h.stack_eq ▸ top) markerKind kind, turned.shared, turned.stack_eq,
        congrArg (fun p : Pending => { p with name := some token.text }) h.pending_eq⟩
  | expand input top kind cell fits =>
      obtain ⟨_, input'⟩ := (input ▸ shared).head
      exact ⟨_, .expand input' (h.stack_eq ▸ top) kind cell (h.stack_eq ▸ fits),
        h.turn shared _⟩
  | drop input top =>
      obtain ⟨_, input'⟩ := (input ▸ shared).head
      exact ⟨_, .drop input' (h.stack_eq ▸ top), h.turn shared _⟩

/-- Alike machines refuse for the same reason in the same place. The input of neither runs out, as
the end marker is still there. -/
theorem Alike.refusal (h : Alike last m k) (nonempty : m.stack.items ≠ []) {d : Diagnostic}
    (refusal : Refusal T m d m') :
    (∃ k', Refusal T k d k') ∧ d.fault ≠ .inputExhausted := by
  have shared := h.shared
  cases refusal with
  | unstacked empty => exact absurd empty nonempty
  | exhausted input =>
      rw [input] at shared
      cases shared
  | nameless input _ markerKind =>
      obtain ⟨_, _, none⟩ := (input ▸ shared).tail (by simp [markerKind, marks])
      cases none
  | mismatch input top kind =>
      obtain ⟨_, input'⟩ := (input ▸ shared).head
      exact ⟨⟨_, .mismatch input' (h.stack_eq ▸ top) kind⟩, by simp⟩
  | missing input top markerKind kind =>
      obtain ⟨_, input', next⟩ := (input ▸ shared).tail (by simp [markerKind, marks])
      obtain ⟨_, rfl⟩ := next.head
      exact ⟨⟨_, .missing input' (h.stack_eq ▸ top) markerKind kind⟩, by simp⟩
  | unexpected input top cell =>
      obtain ⟨_, input'⟩ := (input ▸ shared).head
      exact ⟨⟨_, .unexpected input' (h.stack_eq ▸ top) cell⟩, by simp⟩
  | overflow input top kind cell full =>
      obtain ⟨_, input'⟩ := (input ▸ shared).head
      rw [← h.stack_eq] at top full ⊢
      exact ⟨⟨_, .overflow input' top kind cell full⟩, by simp⟩

/-- Alike machines end alike, after as many moves. -/
theorem Alike.ends (h : Alike last m k) (grounded : m.Grounded) {n : Nat}
    {out : Verdict × Machine} (ends : Ends T n m out) :
    ∃ out', Ends T n k out' ∧ conclude out' = conclude out ∧
      ∀ d, out.1 = .rejected d → d.fault ≠ .inputExhausted := by
  induction ends generalizing k with
  | @now m out step final =>
      have effect := effect_step T m
      rw [step] at effect
      obtain ⟨verdict, m'⟩ := out
      cases verdict with
      | ongoing => exact absurd rfl final
      | accepted =>
          obtain ⟨accepting, rfl⟩ := effect
          refine ⟨_, ends_of_accepting (h.accepting accepting), ?_, ?_⟩
          · rw [conclude, conclude, h.pending_eq]
          · rintro d ⟨⟩
      | rejected d =>
          obtain ⟨x, below, top, _⟩ := grounded.exists_top
          obtain ⟨⟨k', refusal⟩, fault⟩ := h.refusal marks (by simp [top]) effect
          refine ⟨_, ends_of_refusal refusal, rfl, ?_⟩
          rintro _ ⟨⟩
          exact fault
  | later move _ ih =>
      obtain ⟨k', move', alike⟩ := h.move marks move
      obtain ⟨out', ends, same, fault⟩ := ih alike (move.restacks.grounded grounded)
      exact ⟨out', .later move' ends, same, fault⟩

end Marked

end Machine

namespace Reading

variable {g : Grammar} {T : Table}

/-- Over every grammar with a table, what stands behind an end marker makes no difference to the
result, its place or the registry, and the input does not run out before the marker. -/
theorem unread_behind_endMark (built : Table.build g = .ok T) (before : List Token) {last : Token}
    (marks : last.kind = .terminal .endMark) (after after' : List Token) (r : Registry) :
    ∃ reading, ofTokens T (before ++ last :: after) r = some reading ∧
      ofTokens T (before ++ last :: after') r = some reading ∧
      ∀ d, reading.result = .error d → d.fault ≠ .inputExhausted := by
  obtain ⟨n, out, ends⟩ := Machine.halts built (.start (before ++ last :: after))
  obtain ⟨out', ends', same, fault⟩ :=
    (Machine.alike_start before after after').ends marks (Machine.grounded_start _) ends
  have read := ofTokens_of_ends r ends
  have read' := ofTokens_of_ends r ends'
  rw [same] at read'
  obtain ⟨verdict, m⟩ := out
  cases verdict with
  | ongoing => exact absurd rfl ends.final
  | accepted => exact ⟨_, read, read', fun d failed => by cases failed⟩
  | rejected d =>
      refine ⟨_, read, read', ?_⟩
      rintro _ ⟨⟩
      exact fault d rfl

/-- The place of a missing name is that of the end marker, not of the name behind it. -/
theorem unread_behind_endMark_missingName :
    ∃ T reading, Table.build Grammar.declarations = .ok T ∧
      ofTokens T (Token.ofLine "shell" "int id") (.withBuckets 1) = some reading ∧
      ofTokens T (Token.ofLine "shell" "int id" ++ Token.ofLine "shell" "x") (.withBuckets 1) =
        some reading ∧
      reading.result = .error ⟨.missingIdentifier "#", ⟨6, "shell"⟩⟩ := by
  have computed : (Table.build Grammar.declarations).map (fun T =>
      (ofTokens T (Token.ofLine "shell" "int id") (.withBuckets 1)).map (·.result)) =
        .ok (some (.error ⟨.missingIdentifier "#", ⟨6, "shell"⟩⟩)) := by
    decide +kernel
  have words : Token.ofLine "shell" "int id" =
      Token.ofWords "shell" false (Text.words "int id") ++ [Token.endOf "shell" "int id"] := rfl
  have marks : (Token.endOf "shell" "int id").kind = .terminal .endMark := rfl
  obtain ⟨T, built, result⟩ := Table.exists_of_map_eq_ok computed
  obtain ⟨reading, read, read', _⟩ := unread_behind_endMark built
    (Token.ofWords "shell" false (Text.words "int id")) marks [] (Token.ofLine "shell" "x")
    (.withBuckets 1)
  rw [← words] at read
  rw [read] at result
  refine ⟨T, reading, built, read, ?_, Option.some.inj result⟩
  rw [words, List.append_assoc]
  exact read'

end Reading

end DeclLine
