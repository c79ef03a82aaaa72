import ScriptLint.Proofs.Selector.Grammar

/-!
The readers of selector patterns against the grammar. Each reader comes with two statements: what it
accepts is a form of what it gives, followed by the rest (`…_sound`), and it accepts every form that
is followed by something with which the form cannot go on, and gives what was meant (`…_complete`).
Together: a pattern compiles exactly to what it is a form of (`Selector.compile_eq_ok_iff`).
-/
namespace ScriptLint

theorem Except.bind_eq_ok {ε α β : Type} {x : Except ε α} {f : α → Except ε β} {b : β}
    (h : (x >>= f) = .ok b) : ∃ a, x = .ok a ∧ f a = .ok b := by
  cases x with
  | error => cases h
  | ok a => exact ⟨a, rfl, h⟩

namespace Selector

/-! Classes of characters. -/

theorem isNameChar_not_isBlank {c : Char} (h : isNameChar c = true) : Text.isBlank c = false := by
  have hrange : 97 ≤ c.toNat ∧ c.toNat ≤ 122 ∨ 65 ≤ c.toNat ∧ c.toNat ≤ 90 ∨
      48 ≤ c.toNat ∧ c.toNat ≤ 57 ∨ c.toNat = 95 ∨ c.toNat = 36 := by
    simp only [isNameChar, Char.isAlphanum, Bool.or_eq_true, beq_iff_eq] at h
    rcases h with ((halpha | hdigit) | rfl) | rfl
    · delta Char.isAlpha Char.isUpper Char.isLower at halpha
      simp only [Bool.or_eq_true, Bool.and_eq_true, decide_eq_true_eq] at halpha
      rcases halpha with hupper | hlower
      · exact .inr (.inl ⟨hupper.1, hupper.2⟩)
      · exact .inl ⟨hlower.1, hlower.2⟩
    · simp only [Char.isDigit, Bool.and_eq_true, decide_eq_true_eq] at hdigit
      exact .inr (.inr (.inl ⟨hdigit.1, hdigit.2⟩))
    · decide
    · decide
  simp only [Text.isBlank, Bool.or_eq_false_iff, Bool.and_eq_false_iff, decide_eq_false_iff_not,
    beq_eq_false_iff_ne]
  omega

theorem isWordChar_not_isBlank {c : Char} (h : isWordChar c = true) : Text.isBlank c = false := by
  simp only [isWordChar, Bool.or_eq_true, beq_iff_eq] at h
  rcases h with ((hname | rfl) | rfl) | rfl
  · exact isNameChar_not_isBlank hname
  all_goals decide

section

variable {p : Char → Bool} (hp : ∀ c, p c = true → Text.isBlank c = false)

include hp

theorem eq_false_of_isBlank {c : Char} (hc : Text.isBlank c = true) : p c = false := by
  rw [Bool.eq_false_iff]
  intro hpc
  rw [hp c hpc] at hc
  cases hc

/-- What has no blanks in it does not go on with them. -/
theorem Stops.blanks {blanks rest : Text} (hblanks : Text.allBlank blanks = true)
    (hrest : Stops p rest) : Stops p (blanks ++ rest) :=
  .append (fun c hc => eq_false_of_isBlank hp (List.all_eq_true.mp hblanks c hc)) hrest

end

/-- What cannot go on with characters of a class ends before a run of them. -/
theorem IsRun.stops {p q : Char → Bool} (hpq : ∀ c, p c = true → q c = false) {run : Text}
    (hrun : IsRun p run) (rest : Text) : Stops q (run ++ rest) := by
  cases run with
  | nil => exact absurd rfl hrun.1
  | cons c run => exact stops_cons.mpr (hpq c (hrun.2 c List.mem_cons_self))

/-! Paths. -/

/-- A path can go on with these. -/
def isPathChar (c : Char) : Bool := isNameChar c || c == '.'

theorem readPath_run {run : Text} (hrun : ∀ c ∈ run, isNameChar c = true) (segment rest : Text) :
    readPath segment (run ++ rest) = readPath (run.reverse ++ segment) rest := by
  induction run generalizing segment with
  | nil => rfl
  | cons c run ih =>
    rw [List.cons_append, readPath, if_pos (hrun c List.mem_cons_self),
      ih fun d hd => hrun d (List.mem_cons_of_mem c hd)]
    simp

theorem readPath_of_stops {segment rest : Text} (hne : segment ≠ [])
    (hrest : Stops isPathChar rest) :
    readPath segment rest = .ok ([.ofList segment.reverse], rest) := by
  cases rest with
  | nil => rw [readPath, if_neg hne]
  | cons c rest =>
    simp only [stops_cons, isPathChar, Bool.or_eq_false_iff, beq_eq_false_iff_ne] at hrest
    rw [readPath, if_neg (by simp [hrest.1]), if_neg hne, if_neg hrest.2]

theorem readPath_complete {path : List String} {text rest : Text} (h : PathText path text)
    (hrest : Stops isPathChar rest) : readPath [] (text ++ rest) = .ok (path, rest) := by
  induction h with
  | last hrun =>
    rw [readPath_run hrun.2, List.append_nil, readPath_of_stops (by simpa using hrun.1) hrest,
      List.reverse_reverse]
  | dot hrun _ ih =>
    rw [List.append_assoc, List.cons_append, readPath_run hrun.2, List.append_nil, readPath,
      if_neg (by decide), if_neg (by simpa using hrun.1), if_pos rfl, ih, List.reverse_reverse]
    rfl

/-- With a segment begun, what is read ends it and goes on. -/
theorem readPath_sound {segment cs rest : Text} {path : List String}
    (hsegment : ∀ c ∈ segment, isNameChar c = true) (h : readPath segment cs = .ok (path, rest)) :
    ∃ text, cs = text ++ rest ∧ PathText path (segment.reverse ++ text) := by
  induction cs generalizing segment path with
  | nil =>
    rw [readPath] at h
    split at h
    · cases h
    · rename_i hne
      cases h
      refine ⟨[], rfl, ?_⟩
      rw [List.append_nil]
      exact .last ⟨by simpa using hne, by simpa using hsegment⟩
  | cons c cs ih =>
    rw [readPath] at h
    split at h
    · rename_i hc
      have hall : ∀ d ∈ c :: segment, isNameChar d = true := by simpa [hc] using hsegment
      obtain ⟨text, rfl, hpath⟩ := ih hall h
      exact ⟨c :: text, rfl, by simpa using hpath⟩
    · split at h
      · cases h
      · rename_i hne
        have hrun : IsRun isNameChar segment.reverse :=
          ⟨by simpa using hne, by simpa using hsegment⟩
        split at h
        · rename_i hc
          subst hc
          obtain ⟨⟨segments, later⟩, hread, heq⟩ := Except.bind_eq_ok h
          cases heq
          obtain ⟨text, rfl, hpath⟩ := ih (List.forall_mem_nil _) hread
          exact ⟨'.' :: text, rfl, .dot hrun hpath⟩
        · cases h
          refine ⟨[], rfl, ?_⟩
          rw [List.append_nil]
          exact .last hrun

/-! Operators. -/

theorem symbol_stops (operator : Operator) {p : Char → Bool}
    (hp : ['=', '!', '>', '<'].all (fun c => !p c) = true) (rest : Text) :
    Stops p (operator.symbol ++ rest) := by
  simp only [List.all_cons, List.all_nil, Bool.and_eq_true, Bool.not_eq_true'] at hp
  cases operator <;> simp [Operator.symbol, hp]

theorem readOperator_complete (operator : Operator) {rest : Text} (hrest : Stops (· == '=') rest) :
    readOperator (operator.symbol ++ rest) = .ok (operator, rest) := by
  cases operator with
  | eq | ne | ge | le => rfl
  | gt | lt =>
    cases rest with
    | nil => rfl
    | cons c rest =>
      have hc : c ≠ '=' := by simpa using hrest
      simp [readOperator, Operator.symbol, hc]

theorem readOperator_sound {operator : Operator} {cs rest : Text}
    (h : readOperator cs = .ok (operator, rest)) : cs = operator.symbol ++ rest := by
  rw [readOperator.eq_def] at h
  split at h
  all_goals cases h
  all_goals rfl

/-! Literals. -/

theorem readQuoted_close {quote : Char} (hquote : quote ≠ '\\') (acc rest : Text) :
    readQuoted quote acc (quote :: rest) = .ok (acc.reverse, rest) := by
  cases rest with
  | nil => simp [readQuoted, hquote]
  | cons d rest => simp [readQuoted, hquote]

theorem readQuoted_plain {quote c : Char} (hescape : c ≠ '\\') (hquote : c ≠ quote)
    (acc rest : Text) : readQuoted quote acc (c :: rest) = readQuoted quote (c :: acc) rest := by
  cases rest with
  | nil => simp [readQuoted, hquote]
  | cons d rest => simp [readQuoted, hescape, hquote]

theorem readQuoted_escaped (quote c : Char) (acc rest : Text) :
    readQuoted quote acc ('\\' :: c :: rest) = readQuoted quote (c :: acc) rest := by
  rw [readQuoted, if_pos rfl]

theorem readQuoted_complete {quote : Char} (hquote : quote ≠ '\\') {s text : Text}
    (h : QuotedText quote s text) (acc rest : Text) :
    readQuoted quote acc (text ++ quote :: rest) = .ok (acc.reverse ++ s, rest) := by
  induction h generalizing acc with
  | nil => rw [List.nil_append, readQuoted_close hquote, List.append_nil]
  | plain hescape hother _ ih =>
    rw [List.cons_append, readQuoted_plain hescape hother, ih]
    simp
  | escaped c _ ih =>
    rw [List.cons_append, List.cons_append, readQuoted_escaped, ih]
    simp

theorem readQuoted_sound {quote : Char} {acc cs s rest : Text}
    (h : readQuoted quote acc cs = .ok (s, rest)) :
    ∃ value text, cs = text ++ quote :: rest ∧ s = acc.reverse ++ value ∧
      QuotedText quote value text := by
  fun_induction readQuoted quote acc cs with
  | case1 => cases h
  | case2 acc c hc =>
    cases h
    obtain ⟨_, rfl⟩ := hc
    exact ⟨[], [], rfl, by simp, .nil⟩
  | case3 => cases h
  | case4 acc d rest' ih =>
    obtain ⟨value, text, rfl, rfl, hquoted⟩ := ih h
    exact ⟨d :: value, '\\' :: d :: text, rfl, by simp, .escaped d hquoted⟩
  | case5 acc d rest' _ =>
    cases h
    exact ⟨[], [], rfl, by simp, .nil⟩
  | case6 acc c d rest' hescape hother ih =>
    obtain ⟨value, text, heq, rfl, hquoted⟩ := ih h
    exact ⟨c :: value, c :: text, by rw [heq]; rfl, by simp, .plain hescape hother hquoted⟩

theorem ofWord_eq_iff {word : Text} {literal : Literal} :
    ofWord word = literal ↔ WordText literal word := by
  constructor
  · rintro rfl
    rw [ofWord]
    split
    · rename_i h
      exact h ▸ .yes
    · split
      · rename_i h
        exact h ▸ .no
      · split
        · rename_i h
          exact h ▸ .null
        · rename_i htrue hfalse hnull
          cases hread : Number.read? word with
          | some x => exact .number hread
          | none =>
            refine .text hread ?_
            simp only [List.mem_cons, List.not_mem_nil, or_false, not_or]
            exact ⟨htrue, hfalse, hnull⟩
  · intro h
    cases h with
    | yes | no | null => rfl
    | text hnumber hother =>
      simp only [List.mem_cons, List.not_mem_nil, or_false, not_or] at hother
      rw [ofWord, if_neg hother.1, if_neg hother.2.1, if_neg hother.2.2, hnumber]
    | number hread =>
      have hne : ∀ reserved, Number.read? reserved = none → word ≠ reserved := by
        rintro _ hnone rfl
        rw [hnone] at hread
        cases hread
      rw [ofWord, if_neg (hne _ (by decide +kernel)), if_neg (hne _ (by decide +kernel)),
        if_neg (hne _ (by decide +kernel)), hread]

theorem readLiteral_complete {literal : Literal} {text rest : Text} (h : LiteralText literal text)
    (hrest : Stops isWordChar rest) : readLiteral (text ++ rest) = .ok (literal, rest) := by
  cases h with
  | quoted hquote hquoted =>
    rw [List.cons_append, List.append_assoc, List.singleton_append]
    rcases hquote with rfl | rfl
    · rw [readLiteral, readQuoted_complete (by decide) hquoted]
      rfl
    · rw [readLiteral, readQuoted_complete (by decide) hquoted]
      rfl
  | word hrun hword =>
    have htake := takeWhile_of_stops hrun.2 hrest
    have hdrop := dropWhile_of_stops hrun.2 hrest
    cases text with
    | nil => exact absurd rfl hrun.1
    | cons c cs =>
      have hc := hrun.2 c List.mem_cons_self
      rw [readLiteral.eq_def]
      split
      · rename_i heq
        rw [(List.cons.inj heq).1] at hc
        exact absurd hc (by decide)
      · rename_i heq
        rw [(List.cons.inj heq).1] at hc
        exact absurd hc (by decide)
      · rw [htake, hdrop]
        exact congrArg (fun l => Except.ok (l, rest)) (ofWord_eq_iff.mpr hword)

theorem literalText_of_readQuoted {quote : Char} (hquote : quote = '"' ∨ quote = '\'')
    {later s rest : Text} (h : readQuoted quote [] later = .ok (s, rest)) :
    ∃ text, quote :: later = text ++ rest ∧ LiteralText (.text s) text := by
  obtain ⟨value, text, rfl, rfl, htext⟩ := readQuoted_sound h
  exact ⟨quote :: (text ++ [quote]), by simp, .quoted hquote htext⟩

theorem readLiteral_sound {literal : Literal} {cs rest : Text}
    (h : readLiteral cs = .ok (literal, rest)) :
    ∃ text, cs = text ++ rest ∧ LiteralText literal text := by
  rw [readLiteral.eq_def] at h
  split at h
  · obtain ⟨⟨s, _⟩, hread, heq⟩ := Except.bind_eq_ok h
    cases heq
    exact literalText_of_readQuoted (.inl rfl) hread
  · obtain ⟨⟨s, _⟩, hread, heq⟩ := Except.bind_eq_ok h
    cases heq
    exact literalText_of_readQuoted (.inr rfl) hread
  · split at h
    · cases h
    · rename_i hne
      cases h
      refine ⟨cs.takeWhile isWordChar, List.takeWhile_append_dropWhile.symm, ?_⟩
      exact .word ⟨hne, List.all_eq_true.mp List.all_takeWhile⟩ (ofWord_eq_iff.mp rfl)

/-! Attributes. -/

theorem PathText.stops {path : List String} {text : Text} {p : Char → Bool}
    (h : PathText path text) (hp : ∀ c, isNameChar c = true → p c = false) (rest : Text) :
    Stops p (text ++ rest) := by
  cases h with
  | last hrun => exact hrun.stops hp rest
  | dot hrun _ =>
    rw [List.append_assoc]
    exact hrun.stops hp _

theorem LiteralText.stops {literal : Literal} {text : Text} {p : Char → Bool}
    (h : LiteralText literal text)
    (hp : ∀ c, isWordChar c = true ∨ c = '"' ∨ c = '\'' → p c = false) (rest : Text) :
    Stops p (text ++ rest) := by
  cases h with
  | quoted hquote _ => exact stops_cons.mpr (hp _ (.inr hquote))
  | word hrun _ => exact hrun.stops (fun c hc => hp c (.inl hc)) rest

theorem isPathChar_not_isBlank {c : Char} (h : isPathChar c = true) : Text.isBlank c = false := by
  refine isWordChar_not_isBlank ?_
  simp only [isPathChar, Bool.or_eq_true] at h
  simp only [isWordChar, Bool.or_eq_true, h, true_or]

theorem literalStart_not_isBlank {c : Char} (h : isWordChar c = true ∨ c = '"' ∨ c = '\'') :
    Text.isBlank c = false := by
  rcases h with hword | rfl | rfl
  · exact isWordChar_not_isBlank hword
  all_goals decide

theorem literalStart_ne_equals {c : Char} (h : isWordChar c = true ∨ c = '"' ∨ c = '\'') :
    (c == '=') = false := by
  rw [beq_eq_false_iff_ne]
  rintro rfl
  revert h
  decide

/-- After the opening bracket, an attribute is read off whole, whatever comes after it. -/
theorem readPredicate_complete {predicate : Predicate} {text : Text}
    (h : AttributeText predicate text) :
    ∃ later, text = '[' :: later ∧
      ∀ rest, readPredicate (later ++ rest) = .ok (predicate, rest) := by
  have hclose (rest : Text) : Stops Text.isBlank (']' :: rest) := stops_cons.mpr (by decide)
  cases h with
  | present hbefore hpath hafter =>
    refine ⟨_, rfl, fun rest => ?_⟩
    simp only [List.append_assoc, List.singleton_append]
    rw [readPredicate, skipBlanks_append hbefore (hpath.stops (fun _ => isNameChar_not_isBlank) _),
      readPath_complete hpath (.blanks (fun _ => isPathChar_not_isBlank) hafter
        (stops_cons.mpr (by decide)))]
    simp only [bind, Except.bind, skipBlanks_append hafter (hclose rest)]
  | @test path operator literal before text after between value last hbefore hpath hafter hbetween
      hliteral hlast =>
    refine ⟨_, rfl, fun rest => ?_⟩
    simp only [List.append_assoc, List.singleton_append]
    have hvalue : Stops (· == '=') (between ++ (value ++ (last ++ ']' :: rest))) := by
      refine .blanks ?_ hbetween (hliteral.stops (fun _ => literalStart_ne_equals) _)
      intro c hc
      rw [eq_of_beq hc]
      decide
    have hstop : Stops isWordChar (last ++ ']' :: rest) :=
      .blanks (fun _ => isWordChar_not_isBlank) hlast (stops_cons.mpr (by decide))
    rw [readPredicate, skipBlanks_append hbefore (hpath.stops (fun _ => isNameChar_not_isBlank) _),
      readPath_complete hpath (.blanks (fun _ => isPathChar_not_isBlank) hafter
        (symbol_stops operator (by decide) _))]
    simp only [bind, Except.bind, skipBlanks_append hafter (symbol_stops operator (by decide) _)]
    split
    · rename_i heq
      have hbracket := symbol_stops operator (p := (· == ']')) (by decide)
        (between ++ (value ++ (last ++ ']' :: rest)))
      rw [heq] at hbracket
      exact absurd hbracket (by simp)
    · simp only [readOperator_complete operator hvalue,
        skipBlanks_append hbetween (hliteral.stops (fun _ => literalStart_not_isBlank) _),
        readLiteral_complete hliteral hstop,
        skipBlanks_append hlast (hclose rest)]

theorem readPredicate_sound {predicate : Predicate} {cs rest : Text}
    (h : readPredicate cs = .ok (predicate, rest)) :
    ∃ text, '[' :: cs = text ++ rest ∧ AttributeText predicate text := by
  obtain ⟨before, hcs, hbefore⟩ := exists_blanks_skipBlanks cs
  rw [readPredicate] at h
  obtain ⟨⟨path, rest₁⟩, hread, h⟩ := Except.bind_eq_ok h
  obtain ⟨text, htext, hpath⟩ := readPath_sound (by simp) hread
  obtain ⟨after, hrest₁, hafter⟩ := exists_blanks_skipBlanks rest₁
  rw [hcs, htext, hrest₁]
  dsimp only at h
  split at h
  · rename_i hskip
    cases h
    rw [hskip]
    exact ⟨_, by simp, .present hbefore hpath hafter⟩
  · obtain ⟨⟨operator, rest₂⟩, hoperator, h⟩ := Except.bind_eq_ok h
    rw [readOperator_sound hoperator]
    obtain ⟨between, hrest₂, hbetween⟩ := exists_blanks_skipBlanks rest₂
    obtain ⟨⟨literal, rest₃⟩, hliteral, h⟩ := Except.bind_eq_ok h
    obtain ⟨value, hvalue, hliteral⟩ := readLiteral_sound hliteral
    obtain ⟨last, hrest₃, hlast⟩ := exists_blanks_skipBlanks rest₃
    rw [hrest₂, hvalue, hrest₃]
    dsimp only at h
    split at h
    · rename_i hskip
      cases h
      rw [hskip]
      exact ⟨_, by simp, .test hbefore hpath hafter hbetween hliteral hlast⟩
    · cases h

theorem AttributesText.length_le {predicates : List Predicate} {text : Text}
    (h : AttributesText predicates text) : predicates.length ≤ text.length := by
  induction h with
  | nil => exact Nat.le_refl _
  | cons h _ ih =>
    obtain ⟨later, rfl, _⟩ := readPredicate_complete h
    simp
    omega

theorem readPredicates_complete {predicates : List Predicate} {text rest : Text} {fuel : Nat}
    (h : AttributesText predicates text) (hrest : Stops (· == '[') rest)
    (hfuel : predicates.length ≤ fuel) :
    readPredicates fuel (text ++ rest) = .ok (predicates, rest) := by
  induction h generalizing fuel with
  | nil =>
    rw [List.nil_append, readPredicates.eq_def]
    split
    · exact absurd hrest (by simp)
    · rfl
  | cons h _ ih =>
    obtain ⟨later, rfl, hread⟩ := readPredicate_complete h
    cases fuel with
    | zero => cases hfuel
    | succ fuel =>
      rw [List.append_assoc, List.cons_append, readPredicates, hread]
      simp only [bind, Except.bind, ih (Nat.le_of_succ_le_succ hfuel)]

theorem readPredicates_sound {predicates : List Predicate} {cs rest : Text} {fuel : Nat}
    (h : readPredicates fuel cs = .ok (predicates, rest)) :
    ∃ text, cs = text ++ rest ∧ AttributesText predicates text := by
  fun_induction readPredicates fuel cs generalizing predicates with
  | case1 fuel cs ih =>
    obtain ⟨⟨p, later⟩, hfirst, h⟩ := Except.bind_eq_ok h
    obtain ⟨⟨ps, last⟩, hothers, h⟩ := Except.bind_eq_ok h
    cases h
    obtain ⟨text, htext, hp⟩ := readPredicate_sound hfirst
    obtain ⟨texts, rfl, hps⟩ := ih _ hothers
    exact ⟨text ++ texts, by rw [htext, List.append_assoc], .cons hp hps⟩
  | case2 =>
    cases h
    exact ⟨[], rfl, .nil⟩

/-! Compounds. -/

theorem isKnownType_iff {name : String} :
    isKnownType name = true ↔ ∃ kind : NodeKind, kind ≠ .unknown ∧ kind.typeName = name := by
  simp [isKnownType, NodeKind.mem_all]

theorem typeName_isRun (kind : NodeKind) : IsRun isNameChar kind.typeName.toList := by
  have h : NodeKind.all.all (fun kind => decide (IsRun isNameChar kind.typeName.toList)) = true :=
    by decide +kernel
  exact of_decide_eq_true (List.all_eq_true.mp h kind (NodeKind.mem_all kind))

theorem readType_complete {kind : Option String} {text rest : Text} (h : TypeText kind text)
    (hrest : Stops isNameChar rest) (hstar : text = [] → Stops (· == '*') rest) :
    readType (text ++ rest) = .ok (kind, rest) := by
  cases h with
  | star => rfl
  | omitted =>
    have htake := takeWhile_of_stops (List.forall_mem_nil _) hrest
    rw [List.nil_append] at htake ⊢
    rw [readType.eq_def]
    split
    · exact absurd (hstar rfl) (by simp)
    · rw [htake]
  | @name kind hknown =>
    have hrun := typeName_isRun kind
    have htake := takeWhile_of_stops hrun.2 hrest
    have hdrop := dropWhile_of_stops hrun.2 hrest
    rw [readType.eq_def]
    split
    · rename_i later heq
      -- a star belongs to no name
      have hstop := hrun.stops (q := fun c => !isNameChar c) (by simp) rest
      rw [heq] at hstop
      exact absurd hstop (by simp; decide)
    · split
      · rename_i hnil
        exact absurd (htake.symm.trans hnil) hrun.1
      · rw [htake, hdrop, String.ofList_toList, if_pos (isKnownType_iff.mpr ⟨kind, hknown, rfl⟩)]

theorem readType_sound {kind : Option String} {cs rest : Text}
    (h : readType cs = .ok (kind, rest)) : ∃ text, cs = text ++ rest ∧ TypeText kind text := by
  rw [readType.eq_def] at h
  split at h
  · cases h
    exact ⟨['*'], rfl, .star⟩
  · split at h
    · cases h
      exact ⟨[], rfl, .omitted⟩
    · split at h
      · rename_i hknown
        cases h
        obtain ⟨kind, hkind, hname⟩ := isKnownType_iff.mp hknown
        refine ⟨cs.takeWhile isNameChar, List.takeWhile_append_dropWhile.symm, ?_⟩
        have htext := TypeText.name hkind
        rwa [hname, String.toList_ofList] at htext
      · cases h

/-- A compound can go on with these. -/
def isCompoundChar (c : Char) : Bool := isNameChar c || c == '['

theorem AttributesText.eq_nil_or_cons {predicates : List Predicate} {text : Text}
    (h : AttributesText predicates text) : text = [] ∨ ∃ later, text = '[' :: later := by
  cases h with
  | nil => exact .inl rfl
  | cons h _ =>
    obtain ⟨later, rfl, _⟩ := readPredicate_complete h
    exact .inr ⟨_, rfl⟩

theorem readCompound_complete {compound : Compound} {text rest : Text}
    (h : CompoundText compound text) (hrest : Stops isCompoundChar rest) :
    readCompound (text ++ rest) = .ok (compound, rest) := by
  cases h with
  | @intro kind predicates type attributes htype hattributes hne =>
    have hname : Stops isNameChar rest := by
      intro c hc
      exact (Bool.or_eq_false_iff.mp (hrest c hc)).1
    have hbracket : Stops (· == '[') rest := by
      intro c hc
      exact (Bool.or_eq_false_iff.mp (hrest c hc)).2
    have hafter : Stops isNameChar (attributes ++ rest) := by
      rcases hattributes.eq_nil_or_cons with rfl | ⟨later, rfl⟩
      · exact hname
      · exact stops_cons.mpr (by decide)
    -- without a type there are attributes, and their bracket is no star
    have hstar : type = [] → Stops (· == '*') (attributes ++ rest) := by
      rintro rfl
      rcases hattributes.eq_nil_or_cons with rfl | ⟨later, rfl⟩
      · exact absurd rfl hne
      · exact stops_cons.mpr (by decide)
    have hread : readPredicates (attributes ++ rest).length (attributes ++ rest) =
        .ok (predicates, rest) := by
      refine readPredicates_complete hattributes hbracket (Nat.le_trans hattributes.length_le ?_)
      rw [List.length_append]
      exact Nat.le_add_right _ _
    have hends : rest ≠ type ++ attributes ++ rest := by
      intro heq
      exact hne (List.self_eq_append_left.mp heq)
    rw [readCompound, List.append_assoc, readType_complete htype hafter hstar]
    simp only [bind, Except.bind, hread]
    rw [← List.append_assoc, if_neg hends]

theorem readCompound_sound {compound : Compound} {cs rest : Text}
    (h : readCompound cs = .ok (compound, rest)) :
    ∃ text, cs = text ++ rest ∧ CompoundText compound text := by
  rw [readCompound] at h
  obtain ⟨⟨kind, later⟩, hkind, h⟩ := Except.bind_eq_ok h
  obtain ⟨⟨predicates, last⟩, hpredicates, h⟩ := Except.bind_eq_ok h
  obtain ⟨type, rfl, htype⟩ := readType_sound hkind
  obtain ⟨attributes, rfl, hattributes⟩ := readPredicates_sound hpredicates
  dsimp only at h
  split at h
  · cases h
  · rename_i hends
    cases h
    refine ⟨type ++ attributes, (List.append_assoc ..).symm, .intro htype hattributes ?_⟩
    intro hnil
    rw [← List.append_assoc, hnil] at hends
    exact hends rfl

/-! Steps and whole patterns. -/

theorem CompoundText.exists_cons {compound : Compound} {text : Text}
    (h : CompoundText compound text) :
    ∃ c later, text = c :: later ∧ Text.isBlank c = false ∧ c ≠ '>' := by
  cases h with
  | @intro kind predicates type attributes htype hattributes hne =>
    cases htype with
    | star => exact ⟨'*', attributes, rfl, by decide, by decide⟩
    | omitted =>
      rcases hattributes.eq_nil_or_cons with rfl | ⟨later, rfl⟩
      · exact absurd rfl hne
      · exact ⟨'[', later, rfl, by decide, by decide⟩
    | @name kind _ =>
      obtain ⟨hname, hrun⟩ := typeName_isRun kind
      obtain ⟨c, later, heq⟩ := List.exists_cons_of_ne_nil hname
      rw [heq] at hrun ⊢
      have hc := hrun c List.mem_cons_self
      refine ⟨c, later ++ attributes, rfl, isNameChar_not_isBlank hc, ?_⟩
      rintro rfl
      exact absurd hc (by decide)

theorem isCompoundChar_not_isBlank {c : Char} (h : isCompoundChar c = true) :
    Text.isBlank c = false := by
  simp only [isCompoundChar, Bool.or_eq_true, beq_iff_eq] at h
  rcases h with hname | rfl
  · exact isNameChar_not_isBlank hname
  · decide

/-- A compound ends where steps begin, or blanks at the end of the pattern. -/
theorem StepsText.stops {steps : List (Combinator × Compound)} {text trail : Text}
    (h : StepsText steps text) (htrail : Text.allBlank trail = true) :
    Stops isCompoundChar (text ++ trail) := by
  have hblank := fun c => isCompoundChar_not_isBlank (c := c)
  cases h with
  | nil =>
    rw [List.nil_append, ← List.append_nil trail]
    exact .blanks hblank htrail (stops_nil _)
  | cons hjoint htext _ =>
    rw [List.append_assoc]
    cases hjoint with
    | child hbefore _ =>
      rw [List.append_assoc]
      exact .blanks hblank hbefore (stops_cons.mpr (by decide))
    | descendant hne hblanks =>
      obtain ⟨c, later, rfl⟩ := List.exists_cons_of_ne_nil hne
      exact stops_cons.mpr
        (eq_false_of_isBlank hblank (List.all_eq_true.mp hblanks c List.mem_cons_self))

theorem readSteps_complete {steps : List (Combinator × Compound)} {text trail : Text} {fuel : Nat}
    (h : StepsText steps text) (htrail : Text.allBlank trail = true) (hfuel : steps.length < fuel) :
    readSteps fuel (text ++ trail) = .ok steps := by
  induction h generalizing fuel with
  | nil =>
    obtain ⟨fuel, rfl⟩ := Nat.exists_eq_succ_of_ne_zero (Nat.ne_zero_of_lt hfuel)
    have hskip := skipBlanks_append htrail (stops_nil _)
    rw [List.append_nil] at hskip
    rw [List.nil_append, readSteps, hskip]
  | @cons combinator compound steps joint text rest hjoint htext hrest ih =>
    obtain ⟨fuel, rfl⟩ := Nat.exists_eq_succ_of_ne_zero (Nat.ne_zero_of_lt hfuel)
    have hsteps := ih (Nat.lt_of_succ_lt_succ hfuel)
    have hcompound := readCompound_complete htext (hrest.stops htrail)
    obtain ⟨c, later, hcons, hblank, hgt⟩ := htext.exists_cons
    have hstop : Stops Text.isBlank (text ++ (rest ++ trail)) := by
      rw [hcons]
      exact stops_cons.mpr hblank
    rw [List.append_assoc, List.append_assoc]
    cases hjoint with
    | child hbefore hafter =>
      rw [List.append_assoc, List.cons_append, readSteps,
        skipBlanks_append hbefore (stops_cons.mpr (by decide))]
      simp only [bind, Except.bind, skipBlanks_append hafter hstop, hcompound, hsteps]
    | descendant hne hblanks =>
      have hends : text ++ (rest ++ trail) ≠ joint ++ (text ++ (rest ++ trail)) :=
        fun heq => hne (List.self_eq_append_left.mp heq)
      rw [readSteps, skipBlanks_append hblanks hstop]
      split
      · rename_i heq
        rw [hcons] at heq
        cases heq
      · rename_i heq
        rw [hcons] at heq
        exact absurd (List.cons.inj heq).1 hgt
      · rw [if_neg hends]
        simp only [bind, Except.bind, hcompound, hsteps]

theorem readSteps_sound {steps : List (Combinator × Compound)} {cs : Text} {fuel : Nat}
    (hfuel : cs.length < fuel) (h : readSteps fuel cs = .ok steps) :
    ∃ text trail, cs = text ++ trail ∧ Text.allBlank trail = true ∧ StepsText steps text := by
  induction fuel generalizing cs steps with
  | zero => exact absurd hfuel (Nat.not_lt_zero _)
  | succ fuel ih =>
    obtain ⟨blanks, hcs, hblanks⟩ := exists_blanks_skipBlanks cs
    -- a step uses up its compound at least
    have hstep {joint later rest : Text} {combinator : Combinator} {compound : Compound}
        {others : List (Combinator × Compound)} (hjoint : CombinatorText combinator joint)
        (hcs : cs = joint ++ later) (hcompound : readCompound later = .ok (compound, rest))
        (hothers : readSteps fuel rest = .ok others) :
        ∃ text trail, cs = text ++ trail ∧ Text.allBlank trail = true ∧
          StepsText ((combinator, compound) :: others) text := by
      obtain ⟨text, rfl, htext⟩ := readCompound_sound hcompound
      have hlength : rest.length < fuel := by
        obtain ⟨c, more, rfl, _⟩ := htext.exists_cons
        rw [hcs] at hfuel
        simp at hfuel
        omega
      obtain ⟨texts, trail, rfl, htrail, hsteps⟩ := ih hlength hothers
      exact ⟨joint ++ (text ++ texts), trail, by rw [hcs]; simp, htrail,
        .cons hjoint htext hsteps⟩
    rw [readSteps] at h
    split at h
    · rename_i hskip
      cases h
      rw [hskip, List.append_nil] at hcs
      exact ⟨[], cs, rfl, hcs ▸ hblanks, .nil⟩
    · rename_i rest hskip
      obtain ⟨_, hcompound, h⟩ := Except.bind_eq_ok h
      obtain ⟨_, hothers, h⟩ := Except.bind_eq_ok h
      cases h
      obtain ⟨after, hrest, hafter⟩ := exists_blanks_skipBlanks rest
      refine hstep (.child hblanks hafter) ?_ hcompound hothers
      rw [List.append_assoc, List.cons_append, ← hrest, ← hskip, ← hcs]
    · split at h
      · cases h
      · rename_i hends
        obtain ⟨_, hcompound, h⟩ := Except.bind_eq_ok h
        obtain ⟨_, hothers, h⟩ := Except.bind_eq_ok h
        cases h
        refine hstep (.descendant ?_ hblanks) hcs hcompound hothers
        rintro rfl
        exact hends hcs.symm

theorem StepsText.length_le {steps : List (Combinator × Compound)} {text : Text}
    (h : StepsText steps text) : steps.length ≤ text.length := by
  induction h with
  | nil => exact Nat.le_refl _
  | cons _ htext _ ih =>
    obtain ⟨c, later, rfl, _⟩ := htext.exists_cons
    simp
    omega

theorem read_eq_ok_iff {cs : Text} {first : Compound} {steps : List (Combinator × Compound)} :
    read cs = .ok (first, steps) ↔ ∃ lead text rest trail, cs = lead ++ (text ++ (rest ++ trail)) ∧
      Text.allBlank lead = true ∧ Text.allBlank trail = true ∧
      CompoundText first text ∧ StepsText steps rest := by
  constructor
  · intro h
    rw [read] at h
    obtain ⟨⟨compound, later⟩, hcompound, h⟩ := Except.bind_eq_ok h
    obtain ⟨others, hothers, h⟩ := Except.bind_eq_ok h
    cases h
    obtain ⟨lead, hlead, hblank⟩ := exists_blanks_skipBlanks cs
    obtain ⟨text, htext, hfirst⟩ := readCompound_sound hcompound
    obtain ⟨rest, trail, rfl, htrail, hsteps⟩ := readSteps_sound (Nat.lt_succ_self _) hothers
    exact ⟨lead, text, rest, trail, by rw [← htext, ← hlead], hblank, htrail, hfirst, hsteps⟩
  · rintro ⟨lead, text, rest, trail, rfl, hlead, htrail, hfirst, hsteps⟩
    have hstop : Stops Text.isBlank (text ++ (rest ++ trail)) := by
      obtain ⟨c, later, rfl, hblank, _⟩ := hfirst.exists_cons
      exact stops_cons.mpr hblank
    have hread : readSteps ((rest ++ trail).length + 1) (rest ++ trail) = .ok steps := by
      refine readSteps_complete hsteps htrail (Nat.lt_succ_of_le (Nat.le_trans hsteps.length_le ?_))
      rw [List.length_append]
      exact Nat.le_add_right _ _
    rw [read, skipBlanks_append hlead hstop]
    simp only [bind, Except.bind, readCompound_complete hfirst (hsteps.stops htrail), hread]

/-! What was read as a selector. -/

theorem foldl_steps_spec (steps : List (Combinator × Compound)) (s : Selector) :
    ∀ t : Selector, t = steps.foldl
        (fun s step => ⟨s.pattern, step.2, (step.1, s.subject) :: s.context⟩) s →
      t.pattern = s.pattern ∧ t.compounds = s.compounds ++ steps.map (·.2) ∧
        t.combinators = s.combinators ++ steps.map (·.1) := by
  induction steps generalizing s with
  | nil => simp
  | cons step steps ih =>
    rintro t rfl
    have h := ih ⟨s.pattern, step.2, (step.1, s.subject) :: s.context⟩ _ rfl
    simpa [compounds, combinators] using h

theorem ofSteps_spec (pattern : String) (first : Compound) (steps : List (Combinator × Compound)) :
    (ofSteps pattern first steps).pattern = pattern ∧
      (ofSteps pattern first steps).compounds = first :: steps.map (·.2) ∧
      (ofSteps pattern first steps).combinators = steps.map (·.1) :=
  foldl_steps_spec steps ⟨pattern, first, []⟩ _ rfl

/-- A selector is known by its pattern and by what is written in it. -/
theorem eq_of_written_eq {s t : Selector} (hpattern : s.pattern = t.pattern)
    (hcompounds : s.compounds = t.compounds) (hcombinators : s.combinators = t.combinators) :
    s = t := by
  obtain ⟨pattern, subject, context⟩ := s
  obtain ⟨pattern', subject', context'⟩ := t
  obtain rfl : pattern = pattern' := hpattern
  obtain ⟨habove, hsubject⟩ := List.append_inj' hcompounds rfl
  obtain rfl : subject = subject' := List.singleton_inj.mp hsubject
  have hfirsts := List.reverse_inj.mp hcombinators
  have hseconds := List.reverse_inj.mp habove
  obtain rfl : context = context' :=
    (List.zip_of_prod hfirsts hseconds).trans (List.zip_of_prod rfl rfl).symm
  rfl

theorem compile_sound {pattern : String} {s : Selector} (h : compile pattern = .ok s) :
    s.pattern = pattern ∧ PatternText s.compounds s.combinators pattern.toList := by
  rw [compile] at h
  split at h
  · rename_i first steps hread
    cases h
    obtain ⟨hpattern, hcompounds, hcombinators⟩ := ofSteps_spec pattern first steps
    obtain ⟨lead, text, rest, trail, hcs, hlead, htrail, hfirst, hsteps⟩ := read_eq_ok_iff.mp hread
    rw [hcompounds, hcombinators, hcs, ← List.append_assoc text]
    exact ⟨hpattern, .intro hlead (.intro hfirst hsteps) htrail⟩
  · cases h
  · cases h

theorem compile_complete {pattern : String} {compounds : List Compound}
    {combinators : List Combinator} (h : PatternText compounds combinators pattern.toList) :
    ∃ s, compile pattern = .ok s ∧ s.compounds = compounds ∧ s.combinators = combinators := by
  generalize hcs : pattern.toList = cs at h
  obtain ⟨hlead, ⟨hfirst, hsteps⟩, htrail⟩ := h
  rw [List.append_assoc] at hcs
  have hread := read_eq_ok_iff.mpr ⟨_, _, _, _, hcs, hlead, htrail, hfirst, hsteps⟩
  obtain ⟨_, hcompounds, hcombinators⟩ := ofSteps_spec pattern _ _
  exact ⟨_, by rw [compile, hread], hcompounds, hcombinators⟩

/-- A pattern compiles to the selector of which it is a form, and to no other. -/
theorem compile_eq_ok_iff {pattern : String} {s : Selector} :
    compile pattern = .ok s ↔
      s.pattern = pattern ∧ PatternText s.compounds s.combinators pattern.toList := by
  refine ⟨compile_sound, ?_⟩
  rintro ⟨hpattern, htext⟩
  obtain ⟨t, ht, hcompounds, hcombinators⟩ := compile_complete htext
  obtain rfl : t = s :=
    eq_of_written_eq ((compile_sound ht).1.trans hpattern.symm) hcompounds hcombinators
  exact ht

end Selector

end ScriptLint
