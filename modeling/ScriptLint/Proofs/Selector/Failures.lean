import ScriptLint.Proofs.Selector.Reading
import ScriptLint.Proofs.Text.Cut

/-!
Where reading a pattern fails. Each reader that fails for want of something gives the rest at which it
stopped, and what stands before the rest is the beginning of a text that the reader accepts: the
grammar has a form that goes on from there (`Begins`). How it goes on depends on the reader that
failed. A path wants a name, a value a word, an open quote its end, an attribute its bracket; where a
compound is wanted a star will do. So the place that a failure names is one up to which the pattern
was good.
-/
namespace ScriptLint

theorem Except.bind_eq_error {ε α β : Type} {x : Except ε α} {f : α → Except ε β} {e : ε}
    (h : (x >>= f) = .error e) : x = .error e ∨ ∃ a, x = .ok a ∧ f a = .error e := by
  cases x with
  | error e' =>
    cases h
    exact .inl rfl
  | ok a => exact .inr ⟨a, rfl, h⟩

namespace Selector

/-- What stands before the rest is the beginning of some text of the form. -/
def Begins {α : Type} (form : α → Text → Prop) (cs rest : Text) : Prop :=
  ∃ front back x, cs = front ++ rest ∧ form x (front ++ back)

variable {cs rest : Text} {expected : Expected}

/-- With a segment begun, a path fails after a point or before its first name. -/
theorem readPath_begins {segment : Text} (hsegment : ∀ c ∈ segment, isNameChar c = true)
    (h : readPath segment cs = .error (.malformed rest expected)) :
    Begins (fun path text => PathText path (segment.reverse ++ text)) cs rest := by
  have hname : PathText [.ofList ['a']] ['a'] := .last (by decide)
  induction cs generalizing segment with
  | nil =>
    rw [readPath] at h
    split at h
    · rename_i hnil
      subst hnil
      cases h
      exact ⟨[], ['a'], _, rfl, hname⟩
    · cases h
  | cons c cs ih =>
    rw [readPath] at h
    split at h
    · rename_i hc
      have hall : ∀ d ∈ c :: segment, isNameChar d = true := by simpa [hc] using hsegment
      obtain ⟨front, back, path, rfl, hpath⟩ := ih hall h
      exact ⟨c :: front, back, path, rfl, by simpa using hpath⟩
    · split at h
      · rename_i hnil
        subst hnil
        cases h
        exact ⟨[], ['a'], _, rfl, hname⟩
      · rename_i hne
        split at h
        · rename_i hc
          subst hc
          rcases Except.bind_eq_error h with hrest | ⟨_, _, hok⟩
          · -- the point closes the segment, and the failure lies in the path after it
            obtain ⟨front, back, path, rfl, hpath⟩ := ih (List.forall_mem_nil _) hrest
            have hrun : IsRun isNameChar segment.reverse :=
              ⟨by simpa using hne, by simpa using hsegment⟩
            exact ⟨'.' :: front, back, _, rfl, .dot hrun hpath⟩
          · cases hok
        · cases h

theorem readOperator_rest (h : readOperator cs = .error (.malformed rest expected)) : rest = cs := by
  rw [readOperator.eq_def] at h
  split at h
  all_goals cases h
  rfl

/-- An open quote fails at the end only, after a backslash if that is the last character. -/
theorem readQuoted_begins {quote : Char} {acc : Text}
    (h : readQuoted quote acc cs = .error (.malformed rest expected)) :
    rest = [] ∧ Begins (QuotedText quote) cs rest := by
  fun_induction readQuoted quote acc cs with
  | case1 =>
    cases h
    exact ⟨rfl, [], [], [], rfl, .nil⟩
  | case2 => cases h
  | case3 acc c hc =>
    cases h
    refine ⟨rfl, ?_⟩
    -- after a lone backslash any character will do
    by_cases hescape : c = '\\'
    · subst hescape
      exact ⟨['\\'], ['\\'], _, rfl, .escaped '\\' .nil⟩
    · have hquote : c ≠ quote := fun heq => hc ⟨hescape, heq⟩
      exact ⟨[c], [], _, rfl, .plain hescape hquote .nil⟩
  | case4 acc d later ih =>
    obtain ⟨rfl, front, back, s, hcs, hquoted⟩ := ih h
    exact ⟨rfl, '\\' :: d :: front, back, _, by rw [hcs]; rfl, .escaped d hquoted⟩
  | case5 => cases h
  | case6 acc c d later hescape hother ih =>
    obtain ⟨rfl, front, back, s, hcs, hquoted⟩ := ih h
    exact ⟨rfl, c :: front, back, _, by rw [hcs]; rfl, .plain hescape hother hquoted⟩

theorem literalText_begins_of_readQuoted {quote : Char} (hquote : quote = '"' ∨ quote = '\'')
    {later : Text} (h : readQuoted quote [] later = .error (.malformed rest expected)) :
    Begins LiteralText (quote :: later) rest := by
  obtain ⟨rfl, front, back, s, rfl, hquoted⟩ := readQuoted_begins h
  refine ⟨quote :: front, back ++ [quote], .text s, rfl, ?_⟩
  have hliteral := LiteralText.quoted hquote hquoted
  rwa [List.append_assoc] at hliteral

theorem readLiteral_begins (h : readLiteral cs = .error (.malformed rest expected)) :
    Begins LiteralText cs rest := by
  rw [readLiteral.eq_def] at h
  split at h
  · rcases Except.bind_eq_error h with hquoted | ⟨_, _, hok⟩
    · exact literalText_begins_of_readQuoted (.inl rfl) hquoted
    · cases hok
  · rcases Except.bind_eq_error h with hquoted | ⟨_, _, hok⟩
    · exact literalText_begins_of_readQuoted (.inr rfl) hquoted
    · cases hok
  · split at h
    · cases h
      exact ⟨[], ['a'], _, rfl, .word (by decide) (ofWord_eq_iff.mp rfl)⟩
    · cases h

/-- After the opening bracket, what has been read of an attribute goes on to a whole one: it is closed
at once where it can be, and gets a name or a value first where it lacks one. -/
theorem readPredicate_begins (h : readPredicate cs = .error (.malformed rest expected)) :
    Begins AttributeText ('[' :: cs) rest := by
  have hnone : Text.allBlank [] = true := rfl
  obtain ⟨before, hcs, hbefore⟩ := exists_blanks_skipBlanks cs
  rw [readPredicate] at h
  rcases Except.bind_eq_error h with hpath | ⟨⟨path, rest₁⟩, hread, h⟩
  · obtain ⟨front, back, path, hfront, hpath⟩ := readPath_begins (List.forall_mem_nil _) hpath
    rw [hcs, hfront]
    exact ⟨'[' :: (before ++ front), back ++ [']'], _, by simp, by
      simpa using AttributeText.present hbefore hpath hnone⟩
  obtain ⟨text, htext, hpath⟩ := readPath_sound (List.forall_mem_nil _) hread
  obtain ⟨after, hrest₁, hafter⟩ := exists_blanks_skipBlanks rest₁
  rw [hcs, htext, hrest₁]
  dsimp only at h
  split at h
  · cases h
  rcases Except.bind_eq_error h with hoperator | ⟨⟨operator, rest₂⟩, hoperator, h⟩
  · obtain rfl := readOperator_rest hoperator
    exact ⟨'[' :: (before ++ (text ++ after)), [']'], _, by simp, by
      simpa using AttributeText.present hbefore hpath hafter⟩
  obtain ⟨between, hrest₂, hbetween⟩ := exists_blanks_skipBlanks rest₂
  rw [readOperator_sound hoperator, hrest₂]
  rcases Except.bind_eq_error h with hliteral | ⟨⟨literal, rest₃⟩, hliteral, h⟩
  · obtain ⟨front, back, literal, hfront, hliteral⟩ := readLiteral_begins hliteral
    rw [hfront]
    exact ⟨'[' :: (before ++ (text ++ (after ++ (operator.symbol ++ (between ++ front))))),
      back ++ [']'], _, by simp, by
      simpa using AttributeText.test hbefore hpath hafter hbetween hliteral hnone⟩
  obtain ⟨value, hvalue, hliteral⟩ := readLiteral_sound hliteral
  obtain ⟨last, hrest₃, hlast⟩ := exists_blanks_skipBlanks rest₃
  rw [hvalue, hrest₃]
  dsimp only at h
  split at h
  · cases h
  · cases h
    exact ⟨'[' :: (before ++ (text ++ (after ++ (operator.symbol ++ (between ++ (value ++ last)))))),
      [']'], _, by simp, by
      simpa using AttributeText.test hbefore hpath hafter hbetween hliteral hlast⟩

theorem readPredicates_begins {fuel : Nat}
    (h : readPredicates fuel cs = .error (.malformed rest expected)) :
    Begins (fun predicates text => AttributesText predicates text ∧ text ≠ []) cs rest := by
  fun_induction readPredicates fuel cs with
  | case1 fuel later ih =>
    rcases Except.bind_eq_error h with hfirst | ⟨⟨predicate, later'⟩, hfirst, h⟩
    · obtain ⟨front, back, predicate, hcs, htext⟩ := readPredicate_begins hfirst
      obtain ⟨more, hmore, _⟩ := readPredicate_complete htext
      have htexts := AttributesText.cons htext .nil
      rw [List.append_nil] at htexts
      exact ⟨front, back, _, hcs, htexts, by simp [hmore]⟩
    rcases Except.bind_eq_error h with hothers | ⟨_, _, hok⟩
    · obtain ⟨text, hcs, htext⟩ := readPredicate_sound hfirst
      obtain ⟨front, back, predicates, rfl, htexts, hne⟩ := ih _ hothers
      refine ⟨text ++ front, back, predicate :: predicates, by rw [hcs, List.append_assoc], ?_, ?_⟩
      · rw [List.append_assoc]
        exact .cons htext htexts
      · rw [List.append_assoc]
        exact List.append_ne_nil_of_right_ne_nil _ hne
    · cases hok
  | case2 => cases h

theorem readType_ne_malformed : readType cs ≠ .error (.malformed rest expected) := by
  intro h
  rw [readType.eq_def] at h
  split at h
  · cases h
  · split at h
    · cases h
    · split at h
      · cases h
      · cases h

/-- A compound fails in an attribute, or before anything of it is read. -/
theorem readCompound_begins (h : readCompound cs = .error (.malformed rest expected)) :
    Begins CompoundText cs rest := by
  rw [readCompound] at h
  rcases Except.bind_eq_error h with htype | ⟨⟨kind, later⟩, htype, h⟩
  · exact absurd htype readType_ne_malformed
  rcases Except.bind_eq_error h with hattributes | ⟨⟨predicates, last⟩, hattributes, h⟩
  · obtain ⟨type, rfl, htext⟩ := readType_sound htype
    obtain ⟨front, back, predicates, hlater, htexts, hne⟩ := readPredicates_begins hattributes
    subst hlater
    refine ⟨type ++ front, back, ⟨kind, predicates⟩, (List.append_assoc ..).symm, ?_⟩
    rw [List.append_assoc]
    exact .intro htext htexts (List.append_ne_nil_of_right_ne_nil _ hne)
  · dsimp only at h
    split at h
    · cases h
      have hstar := CompoundText.intro .star .nil (List.cons_ne_nil '*' [])
      exact ⟨[], ['*'], _, rfl, hstar⟩
    · cases h

/-- Steps fail in a compound, or where one compound directly follows another. -/
theorem readSteps_begins {fuel : Nat} (h : readSteps fuel cs = .error (.malformed rest expected)) :
    Begins StepsText cs rest := by
  induction fuel generalizing cs with
  | zero => cases h
  | succ fuel ih =>
    obtain ⟨blanks, hcs, hblanks⟩ := exists_blanks_skipBlanks cs
    -- a step fails in its compound or goes over to the steps after it
    have hstep {joint later : Text} {combinator : Combinator}
        (hjoint : CombinatorText combinator joint) (hcs : cs = joint ++ later)
        (h : (readCompound later >>= fun read => readSteps fuel read.2 >>= fun steps =>
          .ok ((combinator, read.1) :: steps)) = .error (.malformed rest expected)) :
        Begins StepsText cs rest := by
      rcases Except.bind_eq_error h with hcompound | ⟨⟨compound, later'⟩, hcompound, h⟩
      · obtain ⟨front, back, compound, rfl, htext⟩ := readCompound_begins hcompound
        refine ⟨joint ++ front, back, [(combinator, compound)], by simp [hcs], ?_⟩
        simpa using StepsText.cons hjoint htext .nil
      rcases Except.bind_eq_error h with hsteps | ⟨_, _, hok⟩
      · obtain ⟨text, rfl, htext⟩ := readCompound_sound hcompound
        obtain ⟨front, back, steps, hlater, htexts⟩ := ih hsteps
        dsimp only at hlater
        subst hlater
        refine ⟨joint ++ (text ++ front), back, (combinator, compound) :: steps, by simp [hcs], ?_⟩
        simpa using StepsText.cons hjoint htext htexts
      · cases hok
    rw [readSteps] at h
    split at h
    · cases h
    · rename_i later hskip
      obtain ⟨after, hlater, hafter⟩ := exists_blanks_skipBlanks later
      refine hstep (.child hblanks hafter) ?_ h
      rw [List.append_assoc, List.cons_append, ← hlater, ← hskip, ← hcs]
    · split at h
      · -- nothing was skipped: the compounds up to here are a pattern already
        rename_i hsame
        cases h
        exact ⟨[], [], [], hsame.symm, .nil⟩
      · rename_i hends
        refine hstep (.descendant ?_ hblanks) hcs h
        rintro rfl
        exact hends hcs.symm

theorem read_begins (h : read cs = .error (.malformed rest expected)) :
    Begins (fun (parts : List Compound × List Combinator) => PatternText parts.1 parts.2)
      cs rest := by
  have hnone : Text.allBlank [] = true := rfl
  obtain ⟨lead, hcs, hlead⟩ := exists_blanks_skipBlanks cs
  rw [read] at h
  rcases Except.bind_eq_error h with hfirst | ⟨⟨first, later⟩, hfirst, h⟩
  · obtain ⟨front, back, first, hfront, htext⟩ := readCompound_begins hfirst
    rw [hcs, hfront]
    refine ⟨lead ++ front, back, ([first], []), by simp, ?_⟩
    simpa using PatternText.intro hlead (.intro htext .nil) hnone
  rcases Except.bind_eq_error h with hsteps | ⟨_, _, hok⟩
  · obtain ⟨text, hfront, htext⟩ := readCompound_sound hfirst
    obtain ⟨front, back, steps, hlater, htexts⟩ := readSteps_begins hsteps
    subst hlater
    rw [hcs, hfront]
    refine ⟨lead ++ (text ++ front), back, (first :: steps.map (·.2), steps.map (·.1)), by simp, ?_⟩
    simpa using PatternText.intro hlead (.intro htext htexts) hnone
  · cases hok

/-- A failure for want of something names the pattern and a boundary of it, and what stands before the
boundary goes on to a pattern that compiles. -/
theorem malformed_after_good_start {pattern shown : String} {position : Nat}
    (h : compile pattern = .error (.malformed shown position expected)) :
    shown = pattern ∧ position ≤ Text.width pattern.toList ∧
      Text.isBoundary pattern.toList position = true ∧
      ∃ (more : String) (s : Selector),
        compile (.ofList (Text.take position pattern.toList) ++ more) = .ok s := by
  rw [compile] at h
  split at h
  · cases h
  · rename_i rest _ hread
    cases h
    obtain ⟨front, back, parts, hpattern, htext⟩ := read_begins hread
    have hposition : Text.width pattern.toList - Text.width rest = Text.width front := by
      rw [hpattern, Text.width_append]
      omega
    have htake : Text.take (Text.width front) pattern.toList = front := by
      rw [hpattern, Text.take_width_append]
    have hboundary : Text.isBoundary pattern.toList (Text.width front) = true :=
      (Text.isBoundary_iff _ _).mpr ⟨front, rest, hpattern, rfl⟩
    rw [hposition, htake]
    refine ⟨rfl, Text.le_width_of_isBoundary hboundary, hboundary, .ofList back, ?_⟩
    rw [← String.ofList_append]
    rw [← String.toList_ofList (l := front ++ back)] at htext
    obtain ⟨s, hs, _⟩ := compile_complete htext
    exact ⟨s, hs⟩
  · cases h

/-- The pattern ends in the middle of a quoted character. -/
theorem malformed_after_good_start_openEscape :
    compile "* > [a.b='é\\" = .error (.malformed "* > [a.b='é\\" 13 .closingQuote) ∧
      ∃ (more : String) (s : Selector),
        compile (.ofList (Text.take 13 "* > [a.b='é\\".toList) ++ more) = .ok s := by
  have h : compile "* > [a.b='é\\" = .error (.malformed "* > [a.b='é\\" 13 .closingQuote) := by
    rfl
  exact ⟨h, (malformed_after_good_start h).2.2.2⟩

end Selector

end ScriptLint
