import DeclLine.Proofs.FollowSets

/-!
FOLLOW holds exactly what can stand behind a nonterminal. A round adds only terminals that some
derived form shows there. Conversely, a form whose nonterminals are followed as the sets allow
stays one wherever a nonterminal of it is replaced, so no derived form shows more.
-/
namespace DeclLine

/-- Some nonterminal derives a form with `t` right behind `n`, or `t` is the end marker and the
start symbol derives a form that ends in `n`. -/
def Grammar.Follows (g : Grammar) (n : Nonterminal) (t : Terminal) : Prop :=
  (∃ m u v, g.Derives [.nonterminal m] (u ++ .nonterminal n :: .terminal t :: v)) ∨
    t = .endMark ∧ ∃ u, g.Derives [.nonterminal g.start] (u ++ [.nonterminal n])

namespace Grammar

variable {g : Grammar} {p : Production} {n : Nonterminal} {t : Terminal} {front rest : List Symbol}

theorem follows_of_begins (mem : p ∈ g.productions)
    (body : spelled p.body = front ++ .nonterminal n :: rest) (begins : g.Begins t rest) :
    g.Follows n t := by
  obtain ⟨after, shown⟩ := begins.derives
  refine .inl ⟨p.head, front, after, ?_⟩
  apply Derives.step (u := []) (v := []) p mem
  have := shown.between (front ++ [.nonterminal n]) []
  simpa [body] using this

/-- What follows the head of a body follows each nonterminal that the body can end in. -/
theorem Follows.inherit (h : g.Follows p.head t) (mem : p ∈ g.productions)
    (body : spelled p.body = front ++ .nonterminal n :: rest) (gone : g.Vanishes rest) :
    g.Follows n t := by
  have inner : ∀ u v, g.Derives (u ++ .nonterminal p.head :: v)
      (u ++ front ++ .nonterminal n :: v) := by
    intro u v
    apply Derives.step p mem
    have := gone.derives.between (u ++ front ++ [.nonterminal n]) v
    simpa [body] using this
  cases h with
  | inl inside =>
      obtain ⟨m, u, v, derives⟩ := inside
      exact .inl ⟨m, u ++ front, v, derives.trans (inner u _)⟩
  | inr atEnd =>
      obtain ⟨rfl, u, derives⟩ := atEnd
      exact .inr ⟨rfl, u ++ front, derives.trans (inner u [])⟩

end Grammar

namespace FollowSets

variable {g : Grammar} {f : FirstSets} {w : Family TerminalSet}

def Sound (g : Grammar) (w : Family TerminalSet) : Prop :=
  ∀ n, ∀ t ∈ w.get n, g.Follows n t

theorem Sound.spread (sound : Sound g w) (first : FirstSets.Sound g f) {p : Production}
    (mem : p ∈ g.productions) (front rest : List Symbol) (body : p.body = front ++ rest) :
    Sound g (f.spread p.head rest w) := by
  induction rest generalizing front w with
  | nil => exact sound
  | cons x rest ih =>
      cases x with
      | terminal _ | epsilon =>
          exact ih sound (front ++ [_]) (by simpa using body)
      | nonterminal n =>
          have place : spelled p.body = spelled front ++ .nonterminal n :: spelled rest := by
            simp [body, spelled]
          refine ih ?_ (front ++ [.nonterminal n]) (by simpa using body)
          intro k t ht
          rw [Family.get_set] at ht
          split at ht
          · subst k
            have added : t ∈ w.get n ∨ t ∈ f.firstOfSequence rest ∨
                f.erasable rest = true ∧ t ∈ w.get p.head := by
              split at ht <;> simp_all
            obtain old | begins | ⟨gone, follow⟩ := added
            · exact sound n t old
            · exact Grammar.follows_of_begins mem place (first.begins begins)
            · exact (sound p.head t follow).inherit mem place (first.vanishes gone)
          · exact sound k t ht

theorem Sound.foldl (first : FirstSets.Sound g f) (ps : List Production)
    (sub : ∀ p ∈ ps, p ∈ g.productions) (sound : Sound g w) :
    Sound g (ps.foldl (fun w p => f.spread p.head p.body w) w) := by
  induction ps generalizing w with
  | nil => exact sound
  | cons p ps ih =>
      apply ih (fun q hq => sub q (.tail p hq))
      exact sound.spread first (sub p (.head ps)) [] p.body rfl

theorem sound_followSeed (g : Grammar) : Sound g g.followSeed := by
  intro n t ht
  rw [Grammar.followSeed, Family.get_set] at ht
  split at ht
  · subst n
    exact .inr ⟨TerminalSet.mem_singleton.mp ht, [], .refl _⟩
  · simp at ht

theorem settled_sound (g : Grammar) : Sound g (Sets.ofGrammar g).follow :=
  settle_induction ((Sets.ofGrammar g).followRound g) missing _
    (fun _ h => Sound.foldl (FirstSets.settled_sound g) _ (fun _ hp => hp) h) _
    (sound_followSeed g)

end FollowSets

namespace Sets

variable {s : Sets} {beyond : TerminalSet}

theorem Followed.suffix {u a : List Symbol} (h : s.Followed beyond (u ++ a)) :
    s.Followed beyond a := by
  induction u with
  | nil => exact h
  | cons x u ih =>
      cases x with
      | nonterminal _ => exact ih h.2.2
      | terminal _ | epsilon => exact ih h

/-- The end of a form gives way to one that shows no more to the symbols before it. -/
theorem Followed.replace {u a b : List Symbol} (h : s.Followed beyond (u ++ a))
    (hb : s.Followed beyond b) (first : s.firstOfSequence b ⊆ s.firstOfSequence a)
    (gone : s.erasable b = true → s.erasable a = true) : s.Followed beyond (u ++ b) := by
  induction u with
  | nil => exact hb
  | cons x u ih =>
      cases x with
      | terminal _ | epsilon => exact ih h
      | nonterminal n =>
          rw [List.cons_append] at h ⊢
          refine ⟨?_, ?_, ih h.2.2⟩
          · intro t ht
            apply h.1 t
            rw [FirstSets.mem_firstOfSequence_append] at ht ⊢
            exact ht.imp id (And.imp_right (first t))
          · intro erased
            apply h.2.1
            simp only [FirstSets.erasable_append, Bool.and_eq_true] at erased ⊢
            exact ⟨erased.1, gone erased.2⟩

variable {g : Grammar}

theorem Followed.derives {a b : List Symbol} (h : (ofGrammar g).Followed beyond a)
    (d : g.Derives a b) : (ofGrammar g).Followed beyond b := by
  induction d with
  | refl _ => exact h
  | @step u v w p mem _ ih =>
      have closed := FirstSets.settled_closed g p mem
      apply ih
      rw [List.append_assoc]
      apply h.replace (h.suffix.expand mem)
      · intro t ht
        rw [FirstSets.mem_firstOfSequence_append, FirstSets.firstOfSequence_spelled,
          FirstSets.erasable_spelled] at ht
        rw [FirstSets.mem_firstOfSequence_nonterminal]
        exact ht.imp (closed.2 t) (And.imp_left closed.1)
      · intro erased
        simp only [FirstSets.erasable_append, FirstSets.erasable_spelled, Bool.and_eq_true]
          at erased
        simp only [FirstSets.erasable, Bool.and_eq_true]
        exact ⟨closed.1 erased.1, erased.2⟩

/-- The start symbol may be followed by the end marker. -/
theorem followed_goal (g : Grammar) :
    (ofGrammar g).Followed {.endMark} [.nonterminal g.start] := by
  apply followed_alone
  intro t ht
  obtain rfl := TerminalSet.mem_singleton.mp ht
  exact endMark_mem_followOf_start g

theorem mem_followOf_iff_follows {n : Nonterminal} {t : Terminal} :
    t ∈ (ofGrammar g).followOf n ↔ g.Follows n t := by
  refine ⟨FollowSets.settled_sound g n t, fun h => ?_⟩
  cases h with
  | inl inside =>
      obtain ⟨m, u, v, derives⟩ := inside
      have followed := ((followed_alone (TerminalSet.subset_refl _)).derives derives).suffix
      exact followed.1 t (TerminalSet.mem_singleton.mpr rfl)
  | inr atEnd =>
      obtain ⟨rfl, u, derives⟩ := atEnd
      have followed := ((followed_goal g).derives derives).suffix
      exact followed.2.1 rfl .endMark (TerminalSet.mem_singleton.mpr rfl)

/-- A terminal is in FOLLOW of a nonterminal exactly when some nonterminal, reachable or not,
derives a form that shows the two side by side, or when it is the end marker and the start symbol
derives a form with the nonterminal last. -/
theorem follow_exact (g : Grammar) :
    (∀ n t, t ∈ (ofGrammar g).followOf n ↔
      (∃ m form, g.Derives [.nonterminal m] form ∧
        [.nonterminal n, .terminal t] <:+: form) ∨
      t = .endMark ∧ ∃ form, g.Derives [.nonterminal g.start] form ∧
        form.getLast? = some (.nonterminal n)) ∧
    .endMark ∈ (ofGrammar g).followOf g.start := by
  refine ⟨?_, endMark_mem_followOf_start g⟩
  intro n t
  rw [mem_followOf_iff_follows, Grammar.Follows]
  refine or_congr ⟨?_, ?_⟩ (and_congr_right' ⟨?_, ?_⟩)
  · intro ⟨m, u, v, derives⟩
    exact ⟨m, _, derives, u, v, by simp⟩
  · intro ⟨m, form, derives, u, v, shown⟩
    exact ⟨m, u, v, by simpa [← shown] using derives⟩
  · intro ⟨u, derives⟩
    exact ⟨_, derives, List.getLast?_concat⟩
  · intro ⟨form, derives, last⟩
    obtain ⟨u, rfl⟩ := List.getLast?_eq_some_iff.mp last
    exact ⟨u, derives⟩

-- `A` is not reachable from the start symbol, and still gives `B` something to be followed by.
example :
    let s := ofGrammar ⟨.Z, [⟨.Z, [.nonterminal .S]⟩,
      ⟨.A, [.nonterminal .B, .nonterminal .S, .terminal .int]⟩, ⟨.S, [.epsilon]⟩]⟩
    (s.followOf .B).toList = [.int] ∧ (s.followOf .S).toList = [.int, .endMark] := by
  cbv

end Sets

end DeclLine
