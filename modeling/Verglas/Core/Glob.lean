import Mathlib.Computability.Language
import Mathlib.Data.List.Infix

/-!
# Glob matching

A star stands for any run of characters and every other character for itself.  The matcher keeps the
position after the last star and what that star has swallowed so far; forgetting the earlier stars
loses no match, because the last one can swallow whatever they would.
-/

namespace Verglas.Core.Glob

open List

/-- The loop of the matcher.  `backtrack` holds the position in the pattern after the last star and
the position in the text up to which that star has swallowed. -/
def scan (pattern text : List Char) (p t : Nat) (backtrack : Option (Nat × Nat))
    (behind : ∀ b ∈ backtrack, b.1 ≤ p ∧ b.2 ≤ t) : Bool :=
  if t < text.length then
    if p < pattern.length ∧ pattern[p]? = some '*' then
      scan pattern text (p + 1) t (some (p + 1, t)) (by simp)
    else if p < pattern.length ∧ pattern[p]? = text[t]? then
      scan pattern text (p + 1) (t + 1) backtrack fun b last =>
        ⟨(behind b last).1.trans p.le_succ, (behind b last).2.trans t.le_succ⟩
    else
      match backtrack with
      | some (bp, bt) => scan pattern text bp (bt + 1) (some (bp, bt + 1)) (by simp)
      | none => false
  else
    (pattern.drop p).all (· = '*')
termination_by (pattern.length + 1 - backtrack.elim 0 Prod.fst,
  text.length - backtrack.elim 0 Prod.snd, pattern.length - p)
decreasing_by
  · refine .left _ _ ?_
    cases backtrack with
    | none =>
      dsimp only [Option.elim]
      omega
    | some b =>
      have := (behind b rfl).1
      dsimp only [Option.elim]
      omega
  · exact .right _ (.right _ (by omega))
  · simp_all [Prod.lex_def]
    omega

/-- Whether a pattern matches a text. -/
def «matches» (pattern text : String) : Bool := scan pattern.toList text.toList 0 0 none nofun

/-- The strings that a pattern stands for. -/
def language (pattern : List Char) : Language Char :=
  (pattern.map fun c => if c = '*' then ⊤ else {[c]}).prod

variable {pattern text rest literal : List Char} {c : Char}

theorem mem_language_nil : text ∈ language [] ↔ text = [] := Iff.rfl

theorem mem_language_star :
    text ∈ language ('*' :: pattern) ↔ ∃ rest, rest <:+ text ∧ rest ∈ language pattern := by
  rw [language, map_cons, prod_cons, Language.mem_mul]
  constructor
  · rintro ⟨swallowed, -, rest, member, rfl⟩
    exact ⟨rest, suffix_append .., member⟩
  · rintro ⟨rest, ⟨swallowed, rfl⟩, member⟩
    exact ⟨swallowed, trivial, rest, member, rfl⟩

theorem mem_language_cons (plain : c ≠ '*') :
    text ∈ language (c :: pattern) ↔ ∃ rest, text = c :: rest ∧ rest ∈ language pattern := by
  rw [language, map_cons, prod_cons, if_neg plain, Language.mem_mul]
  constructor
  · rintro ⟨_, rfl, rest, member, rfl⟩
    exact ⟨rest, rfl, member⟩
  · rintro ⟨rest, rfl, member⟩
    exact ⟨[c], rfl, rest, member, rfl⟩

theorem mem_language_append (plain : '*' ∉ literal) :
    text ∈ language (literal ++ pattern) ↔
      ∃ rest, text = literal ++ rest ∧ rest ∈ language pattern := by
  induction literal generalizing text with
  | nil => simp
  | cons c literal ih =>
    obtain ⟨other, others⟩ := not_or.mp (mem_cons.not.mp plain)
    rw [cons_append, mem_language_cons (Ne.symm other)]
    simp only [ih others, cons_append]
    constructor
    · rintro ⟨_, rfl, rest, rfl, member⟩
      exact ⟨rest, rfl, member⟩
    · rintro ⟨rest, rfl, member⟩
      exact ⟨_, rfl, rest, rfl, member⟩

theorem nil_mem_language : [] ∈ language pattern ↔ pattern.all (· = '*') = true := by
  induction pattern with
  | nil => simp [mem_language_nil]
  | cons c pattern ih =>
    by_cases star : c = '*'
    · subst star
      simp [mem_language_star, ih]
    · simp [mem_language_cons star, star]

/-- What the scan has left to decide: the rest of the text matches the rest of the pattern, or it
would if the last star swallowed more. -/
def Pending (pattern text : List Char) (p t : Nat) (backtrack : Option (Nat × Nat)) : Prop :=
  text.drop t ∈ language (pattern.drop p) ∨ ∃ b ∈ backtrack, ∃ rest,
    rest <:+ text.drop (b.2 + 1) ∧ rest ∈ language (pattern.drop b.1)

/-- Since the last star the same plain characters were passed in the pattern and in the text. -/
def Aligned (pattern text : List Char) (p t : Nat) (backtrack : Option (Nat × Nat)) : Prop :=
  ∀ b ∈ backtrack, ∃ literal, '*' ∉ literal ∧ pattern.drop b.1 = literal ++ pattern.drop p ∧
    text.drop b.2 = literal ++ text.drop t

/-- Right behind a star, any rest of the text will do. -/
theorem pending_some_iff {bp bt : Nat} :
    Pending pattern text bp bt (some (bp, bt)) ↔
      ∃ rest, rest <:+ text.drop bt ∧ rest ∈ language (pattern.drop bp) := by
  simp only [Pending, Option.mem_some_iff, exists_eq_left', ← tail_drop]
  cases text.drop bt with
  | nil => simp
  | cons c text => simp [suffix_cons_iff, or_and_right, exists_or]

variable {backtrack : Option (Nat × Nat)}

/-- A match that starts behind the text swallowed by the last star leaves a rest for the rest of the
pattern. -/
theorem Aligned.rest_of_suffix {p t : Nat} (aligned : Aligned pattern text p t backtrack)
    {b : Nat × Nat} (last : b ∈ backtrack) (swallowed : rest <:+ text.drop (b.2 + 1))
    (member : rest ∈ language (pattern.drop b.1)) :
    ∃ left, left <:+ text.drop t ∧ left ∈ language (pattern.drop p) := by
  obtain ⟨literal, plain, pattern_eq, text_eq⟩ := aligned b last
  rw [pattern_eq, mem_language_append plain] at member
  obtain ⟨left, rfl, member⟩ := member
  have inside : literal ++ left <:+ literal ++ text.drop t := by
    rw [← text_eq]
    refine swallowed.trans ?_
    rw [← tail_drop]
    exact tail_suffix _
  have shorter := inside.length_le
  simp only [length_append] at shorter
  exact ⟨left, suffix_of_suffix_length_le ((suffix_append ..).trans inside) (suffix_append ..)
    (by omega), member⟩

theorem mismatch {p t : Nat} (inside : t < text.length)
    (star : ¬(p < pattern.length ∧ pattern[p]? = some '*'))
    (other : ¬(p < pattern.length ∧ pattern[p]? = text[t]?)) :
    text.drop t ∉ language (pattern.drop p) := by
  rw [drop_eq_getElem_cons inside]
  by_cases more : p < pattern.length
  · have plain : pattern[p] ≠ '*' := by simpa [more] using star
    have apart : pattern[p] ≠ text[t] := by simpa [more, inside] using other
    rw [drop_eq_getElem_cons more, mem_language_cons plain]
    rintro ⟨rest, equal, -⟩
    exact apart (cons.inj equal).1.symm
  · rw [drop_eq_nil_of_le (not_lt.mp more), mem_language_nil]
    exact nofun

theorem scan_iff {p t : Nat} {behind : ∀ b ∈ backtrack, b.1 ≤ p ∧ b.2 ≤ t}
    (aligned : Aligned pattern text p t backtrack) :
    scan pattern text p t backtrack behind = true ↔ Pending pattern text p t backtrack := by
  fun_induction scan pattern text p t backtrack behind with
  | case1 p t backtrack behind inside star ih =>
    have split : pattern.drop p = '*' :: pattern.drop (p + 1) := by
      have found : pattern[p] = '*' := by simpa [star.1] using star.2
      rw [drop_eq_getElem_cons star.1, found]
    rw [ih (by simp [Aligned]), pending_some_iff, Pending, split, mem_language_star]
    refine ⟨.inl, fun pending => pending.elim id ?_⟩
    -- An earlier star gains nothing: the last one reaches every rest that it reaches.
    rintro ⟨b, last, rest, swallowed, member⟩
    obtain ⟨left, within, member⟩ := aligned.rest_of_suffix last swallowed member
    rw [split, mem_language_star] at member
    obtain ⟨shorter, inside, member⟩ := member
    exact ⟨shorter, inside.trans within, member⟩
  | case2 p t backtrack behind inside star same ih =>
    have plain : pattern[p] ≠ '*' := fun found => star ⟨same.1, by simp [same.1, found]⟩
    have read : pattern[p] = text[t] := by simpa [same.1, inside] using same.2
    have pattern_eq := drop_eq_getElem_cons same.1
    have text_eq := drop_eq_getElem_cons inside
    rw [ih, Pending, Pending, pattern_eq, mem_language_cons plain, text_eq]
    · simp only [read, cons.injEq, true_and, exists_eq_left']
    · intro b last
      obtain ⟨literal, literal_plain, literal_pattern, literal_text⟩ := aligned b last
      refine ⟨literal ++ [pattern[p]], by simp [literal_plain, plain.symm], ?_, ?_⟩
      · rw [literal_pattern, pattern_eq, append_assoc, singleton_append]
      · rw [literal_text, text_eq, read, append_assoc, singleton_append]
  | case3 p t inside star other bp bt behind _ ih =>
    rw [ih (by simp [Aligned]), pending_some_iff]
    simp [Pending, mismatch inside star other]
  | case4 p t inside star other =>
    simp [Pending, mismatch inside star other]
  | case5 p t backtrack behind inside =>
    have finished := drop_eq_nil_of_le (not_lt.mp inside)
    rw [← nil_mem_language, Pending, finished]
    refine ⟨.inl, fun pending => pending.elim id ?_⟩
    rintro ⟨b, last, rest, swallowed, member⟩
    obtain ⟨left, within, member⟩ := aligned.rest_of_suffix last swallowed member
    rw [finished, suffix_nil] at within
    rwa [within] at member

/-- The matcher accepts exactly the language of the pattern. -/
theorem glob_matches_iff (pattern text : String) :
    Glob.matches pattern text = true ↔ text.toList ∈ language pattern.toList := by
  rw [Glob.matches, scan_iff (by simp [Aligned]), Pending]
  simp

end Verglas.Core.Glob
