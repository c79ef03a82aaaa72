import Mathlib.Data.List.Basic
import ScriptLint.Report.Template

/-!
Filling a template replaces its placeholders and nothing else. A template is cut at the first opening
braces and at the first closing ones behind them, and what follows is cut the same way; there is one
such cut of any text (`Cuts.unique`, `exists_cuts`), and it does not depend on the values. The message
has the literals of the cut in their order, with what each key stands for between them
(`Cuts.fill_eq`); whatever a value looks like, it is not cut again.
-/
namespace ScriptLint.Report

def opening : Text := ['{', '{']

def closing : Text := ['}', '}']

/-! The first place of a mark in a text. -/

/-- The mark stands right after `before` and nowhere earlier, also not partly inside `before`. -/
structure FirstAt (mark text before after : Text) : Prop where
  text_eq : text = before ++ (mark ++ after)
  first : ∀ earlier later, text = earlier ++ (mark ++ later) → before.length ≤ earlier.length

variable {mark text before after : Text}

theorem FirstAt.unique {before' after' : Text} (h : FirstAt mark text before after)
    (h' : FirstAt mark text before' after') : before = before' ∧ after = after' := by
  have hlength := Nat.le_antisymm (h.first _ _ h'.text_eq) (h'.first _ _ h.text_eq)
  obtain ⟨hbefore, hrest⟩ := List.append_inj (h.text_eq.symm.trans h'.text_eq) hlength
  exact ⟨hbefore, List.append_cancel_left hrest⟩

theorem FirstAt.occurs (h : FirstAt mark text before after) : mark <:+: text :=
  ⟨before, after, by rw [h.text_eq, List.append_assoc]⟩

theorem FirstAt.of_start (h : text = mark ++ after) : FirstAt mark text [] after :=
  ⟨h, fun _ _ _ => Nat.zero_le _⟩

/-- Where the mark does not begin the text, its first place is the one in the tail. -/
theorem firstAt_cons_iff {c : Char} {tail : Text} :
    FirstAt mark (c :: tail) (c :: before) after ↔
      ¬ mark <+: c :: tail ∧ FirstAt mark tail before after := by
  constructor
  · intro h
    refine ⟨?_, (List.cons.inj h.text_eq).2, ?_⟩
    · rintro ⟨later, hlater⟩
      have := h.first [] later hlater.symm
      simp at this
    · intro earlier later hlater
      have := h.first (c :: earlier) later (by rw [hlater, List.cons_append])
      simpa using this
  · rintro ⟨hnot, h⟩
    refine ⟨by rw [h.text_eq, List.cons_append], ?_⟩
    intro earlier later hlater
    cases earlier with
    | nil => exact absurd ⟨later, hlater.symm⟩ hnot
    | cons b earlier =>
      have := h.first earlier later (List.cons.inj hlater).2
      simpa using this

/-- A mark that occurs has a first place. -/
theorem exists_firstAt (h : mark <:+: text) : ∃ before after, FirstAt mark text before after := by
  induction text with
  | nil => exact ⟨[], [], .of_start (by rw [List.infix_nil.mp h, List.nil_append])⟩
  | cons c tail ih =>
    by_cases hstart : mark <+: c :: tail
    · obtain ⟨after, hafter⟩ := hstart
      exact ⟨[], after, .of_start hafter.symm⟩
    · obtain ⟨before, after, hfirst⟩ := ih ((List.infix_cons_iff.mp h).resolve_left hstart)
      exact ⟨c :: before, after, firstAt_cons_iff.mpr ⟨hstart, hfirst⟩⟩

/-! Cuts of a template. -/

/-- A literal text and the key of the placeholder that follows it. -/
structure Piece where
  literal : Text
  key : Text
  deriving DecidableEq, Repr

/-- A template cut into pieces, and what is left after the last of them. -/
structure Cut where
  pieces : List Piece
  last : Text
  deriving DecidableEq, Repr

/-- The key as a placeholder in the template. -/
def braced (key : Text) : Text := opening ++ (key ++ closing)

/-- The literals of the cut in their order, with a text for each key. -/
def Cut.filled (cut : Cut) (insert : Text → Text) : Text :=
  cut.pieces.flatMap (fun piece => piece.literal ++ insert piece.key) ++ cut.last

theorem Cut.filled_cons (literal key : Text) (cut : Cut) (insert : Text → Text) :
    (Cut.mk (⟨literal, key⟩ :: cut.pieces) cut.last).filled insert =
      literal ++ (insert key ++ cut.filled insert) := by
  rw [filled, filled, List.flatMap_cons, List.append_assoc, List.append_assoc]

theorem Cut.filled_congr {cut : Cut} {insert insert' : Text → Text}
    (h : ∀ piece ∈ cut.pieces, insert piece.key = insert' piece.key) :
    cut.filled insert = cut.filled insert' := by
  rw [filled, filled, List.flatMap_congr fun piece hpiece => by rw [h piece hpiece]]

/-- A text is cut at its first opening braces and the first closing ones after them, and so is the
rest. Where one of the two is missing, everything is left. -/
inductive Cuts : Text → Cut → Prop
  | unopened {text : Text} (hopen : ¬ opening <:+: text) : Cuts text ⟨[], text⟩
  | unclosed {text literal after : Text} (hopen : FirstAt opening text literal after)
      (hclose : ¬ closing <:+: after) : Cuts text ⟨[], text⟩
  | closed {text literal after key rest : Text} {cut : Cut}
      (hopen : FirstAt opening text literal after) (hclose : FirstAt closing after key rest)
      (hrest : Cuts rest cut) : Cuts text ⟨⟨literal, key⟩ :: cut.pieces, cut.last⟩

theorem Cuts.unique {cut cut' : Cut} (h : Cuts text cut) (h' : Cuts text cut') : cut = cut' := by
  induction h generalizing cut' with
  | unopened hopen =>
    cases h' with
    | unopened => rfl
    | unclosed hopen' => exact absurd hopen'.occurs hopen
    | closed hopen' => exact absurd hopen'.occurs hopen
  | unclosed hopen hclose =>
    cases h' with
    | unopened hopen' => exact absurd hopen.occurs hopen'
    | unclosed => rfl
    | closed hopen' hclose' =>
      obtain ⟨-, rfl⟩ := hopen.unique hopen'
      exact absurd hclose'.occurs hclose
  | closed hopen hclose _ ih =>
    cases h' with
    | unopened hopen' => exact absurd hopen.occurs hopen'
    | unclosed hopen' hclose' =>
      obtain ⟨-, rfl⟩ := hopen.unique hopen'
      exact absurd hclose.occurs hclose'
    | closed hopen' hclose' hrest' =>
      -- both cuts have the same first piece and go on with the same rest
      obtain ⟨rfl, rfl⟩ := hopen.unique hopen'
      obtain ⟨rfl, rfl⟩ := hclose.unique hclose'
      rw [ih hrest']

theorem exists_cuts (text : Text) : ∃ cut, Cuts text cut := by
  by_cases hopen : opening <:+: text
  · obtain ⟨literal, after, hliteral⟩ := exists_firstAt hopen
    by_cases hclose : closing <:+: after
    · obtain ⟨key, rest, hkey⟩ := exists_firstAt hclose
      have hshorter : rest.length < text.length := by
        simp only [hliteral.text_eq, hkey.text_eq, opening, List.length_append, List.length_cons]
        omega
      obtain ⟨cut, hcut⟩ := exists_cuts rest
      exact ⟨_, .closed hliteral hkey hcut⟩
    · exact ⟨_, .unclosed hliteral hclose⟩
  · exact ⟨_, .unopened hopen⟩
termination_by text.length

/-- A cut loses nothing of the text. -/
theorem Cuts.filled_braced {cut : Cut} (h : Cuts text cut) : cut.filled braced = text := by
  induction h with
  | unopened => rfl
  | unclosed => rfl
  | closed hopen hclose _ ih =>
    rw [Cut.filled_cons, ih, hopen.text_eq, hclose.text_eq, braced, List.append_assoc,
      List.append_assoc]

/-! How a template is filled. -/

variable {values : Values} {c : Char} {rest : Text}

theorem fill_opening (values : Values) (rest : Text) :
    fill values none (opening ++ rest) = fill values (some []) rest := rfl

theorem fill_closing (values : Values) (key rest : Text) :
    fill values (some key) (closing ++ rest) =
      placeholder values key.reverse ++ fill values none rest := rfl

theorem fill_plain (h : ¬ opening <+: c :: rest) :
    fill values none (c :: rest) = c :: fill values none rest := by
  rw [fill]
  rintro rest' rfl rfl
  exact h ⟨rest', rfl⟩

theorem fill_inside (h : ¬ closing <+: c :: rest) (key : Text) :
    fill values (some key) (c :: rest) = fill values (some (c :: key)) rest := by
  rw [fill]
  rintro rest' rfl rfl
  exact h ⟨rest', rfl⟩

/-- Up to the first opening braces the template stays. -/
theorem fill_literal (h : FirstAt opening text before after) :
    fill values none text = before ++ fill values (some []) after := by
  -- a character of `before` can be an opening brace, but no pair of them begins there
  induction before generalizing text with
  | nil => rw [h.text_eq, List.nil_append, List.nil_append, fill_opening]
  | cons c before ih =>
    obtain rfl := h.text_eq
    rw [List.cons_append] at h ⊢
    obtain ⟨hplain, htail⟩ := firstAt_cons_iff.mp h
    rw [fill_plain hplain, ih htail, List.cons_append]

/-- From the opening braces to the first closing ones, all is key. -/
theorem fill_key (h : FirstAt closing text before after) (key : Text) :
    fill values (some key) text =
      placeholder values (key.reverse ++ before) ++ fill values none after := by
  induction before generalizing text key with
  | nil => rw [h.text_eq, List.nil_append, fill_closing, List.append_nil]
  | cons c before ih =>
    obtain rfl := h.text_eq
    rw [List.cons_append] at h ⊢
    obtain ⟨hinside, htail⟩ := firstAt_cons_iff.mp h
    rw [fill_inside hinside, ih htail, List.reverse_cons, List.append_assoc, List.singleton_append]

theorem fill_unopened (h : ¬ opening <:+: text) : fill values none text = text := by
  induction text with
  | nil => rfl
  | cons c text ih =>
    rw [List.infix_cons_iff, not_or] at h
    rw [fill_plain h.1, ih h.2]

theorem fill_unclosed (h : ¬ closing <:+: text) (key : Text) :
    fill values (some key) text = opening ++ (key.reverse ++ text) := by
  induction text generalizing key with
  | nil => simp [fill, opening]
  | cons c text ih =>
    rw [List.infix_cons_iff, not_or] at h
    rw [fill_inside h.1, ih h.2, List.reverse_cons, List.append_assoc, List.singleton_append]

/-- What fills a template are the literals of its cut, with what the keys stand for. -/
theorem Cuts.fill_eq {cut : Cut} (h : Cuts text cut) (values : Values) :
    fill values none text = cut.filled (placeholder values) := by
  induction h with
  | unopened hopen => exact fill_unopened hopen
  | unclosed hopen hclose =>
    rw [fill_literal hopen, fill_unclosed hclose, hopen.text_eq]
    rfl
  | closed hopen hclose _ ih =>
    rw [fill_literal hopen, fill_key hclose, ih, List.reverse_nil, List.nil_append,
      Cut.filled_cons]

/-! What a key stands for. -/

/-- The key as it is looked up, without the blanks around it. -/
def keyName (key : Text) : String := String.ofList (Text.trim key)

/-- A key stands for the first value of its name, and for the placeholder itself where no value has
the name. -/
inductive Replaces (values : Values) (key : Text) : Text → Prop
  | value {earlier later : Values} {value : String}
      (hvalues : values = earlier ++ (keyName key, value) :: later)
      (hfirst : ∀ entry ∈ earlier, entry.1 ≠ keyName key) : Replaces values key value.toList
  | unknown (hnone : ∀ entry ∈ values, entry.1 ≠ keyName key) : Replaces values key (braced key)

theorem placeholder_of_lookup {key : Text} {value : String}
    (h : values.lookup (keyName key) = some value) : placeholder values key = value.toList := by
  rw [keyName] at h
  rw [placeholder, h]

theorem placeholder_of_unknown {key : Text} (hnone : ∀ entry ∈ values, entry.1 ≠ keyName key) :
    placeholder values key = braced key := by
  have hlookup : values.lookup (String.ofList (Text.trim key)) = none := by
    rw [List.lookup_eq_none_iff]
    intro entry hentry
    exact bne_iff_ne.mpr (hnone entry hentry).symm
  rw [placeholder, hlookup]
  rfl

theorem replaces_iff {key inserted : Text} :
    Replaces values key inserted ↔ inserted = placeholder values key := by
  constructor
  · intro h
    cases h with
    | value hvalues hfirst =>
      refine (placeholder_of_lookup (List.lookup_eq_some_iff.mpr ⟨_, _, hvalues, ?_⟩)).symm
      intro entry hentry
      exact bne_iff_ne.mpr (hfirst entry hentry).symm
    | unknown hnone => exact (placeholder_of_unknown hnone).symm
  · rintro rfl
    cases hlookup : values.lookup (keyName key) with
    | some value =>
      rw [placeholder_of_lookup hlookup]
      obtain ⟨earlier, later, hvalues, hfirst⟩ := List.lookup_eq_some_iff.mp hlookup
      exact .value hvalues fun entry hentry => (bne_iff_ne.mp (hfirst entry hentry)).symm
    | none =>
      have hnone : ∀ entry ∈ values, entry.1 ≠ keyName key := by
        intro entry hentry
        exact (bne_iff_ne.mp (List.lookup_eq_none_iff.mp hlookup entry hentry)).symm
      rw [placeholder_of_unknown hnone]
      exact .unknown hnone

/-- Every template has one cut, from which it can be put together again. Whatever the values are, the
message is put together from the same cut, with what each key stands for in place of the placeholder;
if no value has the name of a key of the cut, the message is the template. -/
theorem render_substitutes_once (template : String) :
    ∃ cut : Cut, (∀ other, Cuts template.toList other ↔ other = cut) ∧
      template.toList = cut.filled braced ∧
      ∀ values : Values,
        (∀ key inserted, Replaces values key inserted ↔ inserted = placeholder values key) ∧
        (render template values).toList = cut.filled (placeholder values) ∧
        ((∀ piece ∈ cut.pieces, ∀ entry ∈ values, entry.1 ≠ keyName piece.key) →
          render template values = template) := by
  obtain ⟨cut, hcut⟩ := exists_cuts template.toList
  have hrender : ∀ values, (render template values).toList = cut.filled (placeholder values) := by
    intro values
    rw [render, String.toList_ofList, hcut.fill_eq]
  refine ⟨cut, ?_, hcut.filled_braced.symm, ?_⟩
  · intro other
    constructor
    · exact fun hother => hother.unique hcut
    · rintro rfl
      exact hcut
  · intro values
    refine ⟨fun _ _ => replaces_iff, hrender values, ?_⟩
    intro hnone
    have hsame : cut.filled (placeholder values) = cut.filled braced :=
      Cut.filled_congr fun piece hpiece => placeholder_of_unknown (hnone piece hpiece)
    rw [← String.toList_inj, hrender, hsame, hcut.filled_braced]

-- the key is what stands after the first two braces, and its value is not read again
example : render "\x7b\x7b\x7ba \x7d\x7d\x7d" [("\x7ba", "\x7b\x7bb\x7d\x7d"), ("b", "1")] =
    "\x7b\x7bb\x7d\x7d\x7d" := by
  decide

end ScriptLint.Report
