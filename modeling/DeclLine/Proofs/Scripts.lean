import DeclLine.Proofs.Run
import Mathlib.Data.List.Infix

/-!
Calls in any order. A step can be called again after a rejection or an acceptance, and the input
can be moved on between two steps. What a rejecting step leaves behind is a stack like any other:
it stands on the end marker, keeps to its capacity and has no mark for the empty string.
-/
namespace DeclLine.Machine

/-- What can be asked of a machine at any time. -/
inductive Call where
  | step
  | advance
  deriving DecidableEq, Repr

def call (T : Table) (m : Machine) : Call → Machine
  | .step => (m.step T).2
  | .advance => m.advance

/-- The machine after a script of calls, whatever they returned. -/
def play (T : Table) (m : Machine) (script : List Call) : Machine :=
  script.foldl (call T) m

variable {T : Table} {m m' : Machine} {tokens : List Token}

/-- What holds after every move, after every refusal and of the machine itself holds after a
step. -/
theorem step_cases {motive : Machine → Prop} (move : ∀ m', Move T m m' → motive m')
    (same : motive m) (refusal : ∀ d m', Refusal T m d m' → motive m') :
    motive (m.step T).2 := by
  have effect := effect_step T m
  generalize m.step T = out at effect ⊢
  cases out with
  | mk verdict m' =>
      cases verdict with
      | ongoing => exact move m' effect
      | accepted => exact effect.2 ▸ same
      | rejected d => exact refusal d m' effect

/-- The stack is as it was, or symbols that fit have come in place of its top. The end marker is
never taken off. -/
inductive Restacks (m m' : Machine) : Prop
  | same (stack : m'.stack = m.stack)
  | replaced {x : Symbol} {front below : List Symbol} (top : m.stack.items = x :: below)
      (other : x ≠ .terminal .endMark) (free : .epsilon ∉ front)
      (room : front.length ≤ m.stack.capacity - below.length)
      (stack : m'.stack = { m.stack with items := front ++ below })

theorem Restacks.pop {x : Symbol} {below : List Symbol} (top : m.stack.items = x :: below)
    (other : x ≠ .terminal .endMark) (popped : m'.stack = { m.stack with items := below }) :
    Restacks m m' :=
  @Restacks.replaced _ _ _ [] _ top other List.not_mem_nil (Nat.zero_le _) popped

theorem epsilon_not_mem_drop (body : List Symbol) (k : Nat) :
    .epsilon ∉ (spelled body).drop k := by
  intro h
  simpa [spelled] using List.mem_of_mem_drop h

theorem Move.restacks (h : Move T m m') : Restacks m m' := by
  cases h with
  | shift _ top _ keyword =>
      refine .pop top ?_ rfl
      rintro ⟨⟩
      cases keyword
  | name _ top _ _ | drop _ top => exact .pop top (by simp) rfl
  | @expand _ _ _ _ p _ _ top _ _ fits =>
      exact .replaced top (by simp) (epsilon_not_mem_drop p.body 0) fits rfl

theorem Refusal.restacks {d : Diagnostic} (h : Refusal T m d m') : Restacks m m' := by
  cases h with
  | unstacked _ | exhausted _ | mismatch _ _ _ | unexpected _ _ _ => exact .same rfl
  | nameless _ top _ | missing _ top _ _ => exact .pop top (by simp) rfl
  | @overflow _ _ _ _ p _ _ top _ _ full =>
      refine .replaced top (by simp) (epsilon_not_mem_drop p.body _) ?_ rfl
      rw [List.length_drop]
      omega

theorem restacks_step (T : Table) (m : Machine) : Restacks m (m.step T).2 :=
  step_cases (fun _ move => move.restacks) (.same rfl) fun _ _ refusal => refusal.restacks

theorem restacks_call (T : Table) (m : Machine) (c : Call) : Restacks m (m.call T c) := by
  cases c with
  | step => exact restacks_step T m
  | advance => exact .same rfl

theorem Restacks.capacity_eq (h : Restacks m m') : m'.stack.capacity = m.stack.capacity := by
  cases h with
  | same stack | replaced _ _ _ _ stack => rw [stack]

theorem Restacks.fits (h : Restacks m m') (fits : m.Fits) : m'.Fits := by
  unfold Fits at *
  cases h with
  | same stack => rwa [stack]
  | replaced top _ _ room stack =>
      rw [top] at fits
      rw [stack]
      simp only [List.length_append, List.length_cons] at *
      omega

theorem Restacks.bottom (h : Restacks m m')
    (bottom : m.stack.items.getLast? = some (.terminal .endMark)) :
    m'.stack.items.getLast? = some (.terminal .endMark) := by
  cases h with
  | same stack => rwa [stack]
  | @replaced _ front below top other _ _ stack =>
      rw [top] at bottom
      -- The end marker lies below the top, since the top is something else.
      have below_ne : below ≠ [] := by
        rintro rfl
        exact other (Option.some.inj bottom)
      rw [stack, List.getLast?_append_of_ne_nil _ below_ne, ← bottom,
        List.getLast?_cons_of_ne_nil below_ne]

theorem Restacks.epsilon_free (h : Restacks m m') (spelled : .epsilon ∉ m.stack.items) :
    .epsilon ∉ m'.stack.items := by
  cases h with
  | same stack => rwa [stack]
  | replaced top _ free _ stack =>
      rw [top, List.mem_cons, not_or] at spelled
      rw [stack, List.mem_append, not_or]
      exact ⟨free, spelled.2⟩

/-- The stack stands on the end marker, within its capacity, and its symbols can be matched or
expanded. -/
structure Grounded (m : Machine) : Prop where
  bottom : m.stack.items.getLast? = some (.terminal .endMark)
  fits : m.Fits
  spelled : .epsilon ∉ m.stack.items

theorem grounded_start (tokens : List Token) : (start tokens).Grounded :=
  ⟨rfl, fits_start tokens, by simp [start]⟩

theorem Restacks.grounded (h : Restacks m m') (grounded : m.Grounded) : m'.Grounded where
  bottom := h.bottom grounded.bottom
  fits := h.fits grounded.fits
  spelled := h.epsilon_free grounded.spelled

theorem Grounded.exists_top (h : m.Grounded) :
    ∃ x below, m.stack.items = x :: below ∧ x ≠ .epsilon := by
  have bottom := h.bottom
  have spelled := h.spelled
  cases items : m.stack.items with
  | nil => simp [items] at bottom
  | cons x below =>
      refine ⟨x, below, rfl, ?_⟩
      rintro rfl
      exact spelled (items ▸ List.mem_cons_self)

/-- What the machine has noted was taken from the tokens, and what is ahead is the rest of them. -/
structure Noted (tokens : List Token) (m : Machine) : Prop where
  ahead : m.rest <:+ tokens
  keyword : ∀ k, m.pending.keyword = some k → k.isTypeKeyword = true
  name : ∀ text, m.pending.name = some text →
    ∃ token ∈ tokens, token.kind = .lexeme ∧ token.text = text

theorem noted_start (tokens : List Token) : Noted tokens (start tokens) where
  ahead := List.suffix_rfl
  keyword _ h := by cases h
  name _ h := by cases h

theorem Noted.turn (h : Noted tokens m) {rest : List Token} (later : rest <:+ m.rest)
    (items : List Symbol) : Noted tokens (m.turn rest items) :=
  ⟨later.trans h.ahead, h.keyword, h.name⟩

theorem Noted.move (h : Noted tokens m) (move : Move T m m') : Noted tokens m' := by
  cases move with
  | @shift token rest t below input _ _ keyword =>
      have turned := h.turn (input ▸ List.suffix_cons token rest) below
      refine ⟨turned.ahead, ?_, turned.name⟩
      rintro k ⟨⟩
      exact keyword
  | @name marker token rest below input _ _ kind =>
      have later : token :: rest <:+ m.rest := input ▸ List.suffix_cons marker _
      have turned := h.turn ((List.suffix_cons token rest).trans later) below
      refine ⟨turned.ahead, turned.keyword, ?_⟩
      rintro text ⟨⟩
      exact ⟨token, (later.trans h.ahead).subset List.mem_cons_self, kind, rfl⟩
  | expand _ _ _ _ _ | drop _ _ => exact h.turn List.suffix_rfl _

theorem Noted.moves (h : Noted tokens m) (moves : Moves T m m') : Noted tokens m' := by
  induction moves with
  | refl => exact h
  | tail _ move ih => exact ih.move move

theorem Noted.refusal {d : Diagnostic} (h : Noted tokens m) (refusal : Refusal T m d m') :
    Noted tokens m' := by
  cases refusal with
  | unstacked _ | exhausted _ | mismatch _ _ _ | unexpected _ _ _ => exact h
  | nameless _ _ _ => exact h.turn List.nil_suffix _
  | missing input _ _ _ => exact h.turn (input ▸ List.suffix_cons _ _) _
  | overflow _ _ _ _ _ => exact h.turn List.suffix_rfl _

theorem Noted.step (h : Noted tokens m) (T : Table) : Noted tokens (m.step T).2 :=
  step_cases (fun _ move => h.move move) h fun _ _ refusal => h.refusal refusal

theorem Noted.call (h : Noted tokens m) (T : Table) (c : Call) : Noted tokens (m.call T c) := by
  cases c with
  | step => exact h.step T
  | advance => exact h.turn (List.tail_suffix m.rest) m.stack.items

/-- On a stack that is not empty, the input runs out at the call, or with a marker whose name would
have been next. -/
theorem exhausted_iff (top : m.stack.items ≠ []) :
    (∃ position, (m.step T).1 = .rejected ⟨.inputExhausted, position⟩) ↔
      m.rest = [] ∨ ∃ marker below, m.rest = [marker] ∧ marker.kind = .terminal .ident ∧
        m.stack.items = .terminal .ident :: below := by
  constructor
  · intro ⟨position, rejected⟩
    have refusal : Refusal T m ⟨.inputExhausted, position⟩ (m.step T).2 :=
      refusal_of_step (Prod.ext rejected rfl)
    generalize (m.step T).2 = m' at refusal
    cases refusal with
    | unstacked empty => exact absurd empty top
    | exhausted input => exact .inl input
    | nameless input ident marks => exact .inr ⟨_, _, input, marks, ident⟩
  · intro h
    cases h with
    | inl input => exact ⟨m.position, by rw [(Refusal.exhausted input).step_eq]⟩
    | inr last =>
        obtain ⟨marker, below, input, marks, ident⟩ := last
        exact ⟨m.finish, by rw [(Refusal.nameless input ident marks).step_eq]⟩

/-- A machine whose stack is grounded and of the depth that every machine starts with, and whose
notes were read. -/
structure Sound (tokens : List Token) (m : Machine) : Prop extends Noted tokens m where
  grounded : m.Grounded
  capacity_eq : m.stack.capacity = Limits.stackDepth

theorem sound_start (tokens : List Token) : Sound tokens (start tokens) where
  toNoted := noted_start tokens
  grounded := grounded_start tokens
  capacity_eq := rfl

theorem Sound.call (h : Sound tokens m) (T : Table) (c : Call) : Sound tokens (m.call T c) :=
  have restacks := restacks_call T m c
  ⟨h.toNoted.call T c, restacks.grounded h.grounded, restacks.capacity_eq.trans h.capacity_eq⟩

theorem Sound.play (h : Sound tokens m) (T : Table) (script : List Call) :
    Sound tokens (m.play T script) := by
  induction script generalizing m with
  | nil => exact h
  | cons c script ih => exact ih (h.call T c)

/-- Over any table and any tokens, whatever was called before: the end marker is at the bottom of
the stack, which holds at most a hundred symbols and a first one to match or to expand; the next
step runs out of input only if no token is left to it; and what is noted was read. -/
theorem sound_after_every_script (T : Table) (tokens : List Token) (script : List Call) :
    let m := (start tokens).play T script
    m.stack.items.getLast? = some (.terminal .endMark) ∧
    1 ≤ m.stack.items.length ∧ m.stack.items.length ≤ 100 ∧ .epsilon ∉ m.stack.items ∧
    (∃ x below, m.stack.items = x :: below ∧ x ≠ .epsilon) ∧
    ((∃ position, (m.step T).1 = .rejected ⟨.inputExhausted, position⟩) ↔
      m.rest = [] ∨ ∃ marker below, m.rest = [marker] ∧ marker.kind = .terminal .ident ∧
        m.stack.items = .terminal .ident :: below) ∧
    (∀ k, m.pending.keyword = some k → k.isTypeKeyword = true) ∧
    (∀ text, m.pending.name = some text →
      ∃ token ∈ tokens, token.kind = .lexeme ∧ token.text = text) := by
  intro m
  have sound : Sound tokens m := (sound_start tokens).play T script
  have top := sound.grounded.exists_top
  have nonempty : m.stack.items ≠ [] := by
    obtain ⟨x, below, items, _⟩ := top
    simp [items]
  have depth : m.stack.items.length ≤ Limits.stackDepth := sound.capacity_eq ▸ sound.grounded.fits
  exact ⟨sound.grounded.bottom, List.length_pos_iff.mpr nonempty, depth, sound.grounded.spelled,
    top, exhausted_iff nonempty, sound.keyword, sound.name⟩

end DeclLine.Machine
