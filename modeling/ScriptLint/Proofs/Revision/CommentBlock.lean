import ScriptLint.Proofs.Token.Ranges
import ScriptLint.Revision.Relocate

/-!
The comments above an offset. One step of the walk back looks at the last token before the offset: if
that is a comment which leads to the offset, the walk goes on from its start, and otherwise it ends
(`Document.leadingCommentStart_of_leads`, `Document.leadingCommentStart_of_not_leads`). So the walk
passes over a block of comments, each of which leads to the next, and stops where no comment leads any
more (`Document.exists_commentBlock`). A block holds all tokens between its ends and all of the text
there (`CommentBlock.tokens_eq`, `CommentBlock.text_eq`).
-/
namespace ScriptLint.Document

variable {doc : Document} {offset start stop : Nat} {t : Token}

/-- The last token that ends at the offset or before it. -/
def tokenBefore? (doc : Document) (offset : Nat) : Option Token :=
  (doc.tokens.toList.filter fun t => t.span.stop ≤ offset).getLast?

/-- The token is a comment that begins its line, up to blanks, and between it and the offset there are
only blanks, with one line feed among them at most. -/
structure Leads (doc : Document) (t : Token) (offset : Nat) : Prop where
  comment : t.isComment = true
  opens : Text.allBlank
    (Text.slice doc.source ⟨Text.lineStart doc.source t.span.start, t.span.start⟩) = true
  blank : Text.allBlank (Text.slice doc.source ⟨t.span.stop, offset⟩) = true
  feeds : (Text.slice doc.source ⟨t.span.stop, offset⟩).count '\n' ≤ 1

theorem leadsTo_iff : doc.leadsTo t offset = true ↔ doc.Leads t offset := by
  simp only [leadsTo, isNarrow, isBlankIn, lineFront, Bool.and_eq_true, decide_eq_true_eq]
  constructor
  · rintro ⟨⟨hcomment, hblank, hfeeds⟩, hopens⟩
    exact ⟨hcomment, hopens, hblank, hfeeds⟩
  · intro h
    exact ⟨⟨h.comment, h.blank, h.feeds⟩, h.opens⟩

/-- Comments from one offset down to another, each of them the last token before the next and leading
to it, and the last of them to the lower offset; with the text that they and the blanks between them
make up. -/
inductive CommentBlock (doc : Document) (start : Nat) : (stop : Nat) → List Token → Text → Prop
  | empty : CommentBlock doc start start [] []
  | comment {stop : Nat} {tokens : List Token} {text : Text} {t : Token}
      (above : CommentBlock doc start t.span.start tokens text)
      (before : doc.tokenBefore? stop = some t) (leads : doc.Leads t stop) :
      CommentBlock doc start stop (tokens ++ [t])
        (text ++ (t.text doc.source ++ Text.slice doc.source ⟨t.span.stop, stop⟩))

section Apart

variable (hdoc : Token.Apart 0 doc.tokens.toList)

include hdoc

/-- The last token before an offset parts the tokens: those before it end where it starts or earlier,
and those after it do not end before the offset. -/
theorem tokenBefore?_eq_some (h : doc.tokenBefore? offset = some t) :
    ∃ front back, doc.tokens.toList = front ++ t :: back ∧ t.span.stop ≤ offset ∧
      t.span.start < t.span.stop ∧ (∀ u ∈ front, u.span.stop ≤ t.span.start) ∧
      ∀ u ∈ back, t.span.stop ≤ u.span.start ∧ offset < u.span.stop := by
  have hdivides := hdoc.divides_stop offset
  rw [tokenBefore?, hdivides.filter_eq_take] at h
  obtain ⟨front, hfront⟩ := List.getLast?_eq_some_iff.mp h
  have htokens : doc.tokens.toList = front ++ t :: doc.tokens.toList.drop
      (partitionPoint doc.tokens fun t => t.span.stop ≤ offset) := by
    conv => lhs; rw [← List.take_append_drop
      (partitionPoint doc.tokens fun t => t.span.stop ≤ offset) doc.tokens.toList, hfront]
    simp
  have ht : t ∈ doc.tokens.toList := by
    rw [htokens]
    simp
  have hpairs := hdoc.pairwise
  rw [htokens, List.pairwise_append, List.pairwise_cons] at hpairs
  refine ⟨front, _, htokens, ?_, (hdoc.start_lt_stop ht).2, ?_, ?_⟩
  · simpa using hdivides.front t (by simp [hfront])
  · intro u hu
    exact hpairs.2.2 u hu t List.mem_cons_self
  · intro u hu
    exact ⟨hpairs.2.1.1 u hu, by simpa using hdivides.back u hu⟩

/-- The tokens before an offset are the last of them and those before its start. -/
theorem tokensAroundSpan_before_cons (h : doc.tokenBefore? offset = some t) :
    doc.tokensAroundSpan ⟨offset, offset⟩ .before =
      t :: doc.tokensAroundSpan ⟨t.span.start, t.span.start⟩ .before := by
  obtain ⟨front, back, htokens, hstop, hlt, hfront, hback⟩ := tokenBefore?_eq_some hdoc h
  have hbefore (n : Nat) (hn : t.span.start ≤ n) :
      (front.filter fun u => u.span.stop ≤ n) = front := by
    apply List.filter_eq_self.mpr
    intro u hu
    have := hfront u hu
    simp only [decide_eq_true_eq]
    omega
  have hafter (n : Nat) (hn : n ≤ offset) : (back.filter fun u => u.span.stop ≤ n) = [] := by
    apply List.filter_eq_nil_iff.mpr
    intro u hu
    have := hback u hu
    simp only [decide_eq_true_eq]
    omega
  have hself : ¬ t.span.stop ≤ t.span.start := by omega
  rw [tokensAroundSpan_before hdoc, tokensAroundSpan_before hdoc, htokens]
  simp [List.filter_append, hbefore offset (by omega), hafter offset (by omega), hstop,
    hbefore t.span.start (by omega), hafter t.span.start (by omega), hself]

/-! One step of the walk. -/

theorem leadingCommentStart_of_leads (h : doc.tokenBefore? offset = some t)
    (hleads : doc.Leads t offset) :
    doc.leadingCommentStart offset = doc.leadingCommentStart t.span.start := by
  rw [leadingCommentStart, tokensAroundSpan_before_cons hdoc h, commentsStart,
    if_pos (leadsTo_iff.mpr hleads), leadingCommentStart]

theorem leadingCommentStart_of_not_leads
    (h : ∀ t, doc.tokenBefore? offset = some t → ¬ doc.Leads t offset) :
    doc.leadingCommentStart offset = offset := by
  cases hbefore : doc.tokenBefore? offset with
  | none =>
    rw [leadingCommentStart, tokensAroundSpan_before hdoc, List.getLast?_eq_none_iff.mp hbefore]
    rfl
  | some t =>
    have hnot := h t hbefore
    rw [← leadsTo_iff] at hnot
    rw [leadingCommentStart, tokensAroundSpan_before_cons hdoc hbefore, commentsStart, if_neg hnot]

/-- The whole walk: it goes up a block of comments to where no comment leads. -/
theorem exists_commentBlock (offset : Nat) :
    (∃ tokens text, doc.CommentBlock (doc.leadingCommentStart offset) offset tokens text) ∧
      ∀ t, doc.tokenBefore? (doc.leadingCommentStart offset) = some t →
        ¬ doc.Leads t (doc.leadingCommentStart offset) := by
  induction offset using Nat.strongRecOn with
  | _ offset ih =>
    by_cases hleads : ∃ t, doc.tokenBefore? offset = some t ∧ doc.Leads t offset
    · obtain ⟨t, hbefore, hleads⟩ := hleads
      obtain ⟨_, _, _, hstop, hlt, _⟩ := tokenBefore?_eq_some hdoc hbefore
      obtain ⟨⟨tokens, text, hblock⟩, hmaximal⟩ := ih t.span.start (by omega)
      rw [leadingCommentStart_of_leads hdoc hbefore hleads]
      exact ⟨⟨_, _, hblock.comment hbefore hleads⟩, hmaximal⟩
    · have hnone : ∀ t, doc.tokenBefore? offset = some t → ¬ doc.Leads t offset :=
        fun t hbefore ht => hleads ⟨t, hbefore, ht⟩
      rw [leadingCommentStart_of_not_leads hdoc hnone]
      exact ⟨⟨_, _, .empty⟩, hnone⟩

end Apart

/-! What a block is made of. -/

namespace CommentBlock

variable {tokens : List Token} {text : Text} (hdoc : Token.Apart 0 doc.tokens.toList)

include hdoc

theorem start_le (h : doc.CommentBlock start stop tokens text) : start ≤ stop := by
  induction h with
  | empty => exact Nat.le_refl _
  | comment _ before _ ih =>
    obtain ⟨_, _, _, hstop, hlt, _⟩ := tokenBefore?_eq_some hdoc before
    omega

/-- The comments of a block are all tokens between its ends. -/
theorem tokens_eq (h : doc.CommentBlock start stop tokens text) :
    tokens = doc.tokensIn ⟨start, stop⟩ := by
  induction h with
  | empty =>
    rw [tokensIn_eq hdoc, eq_comm, List.filter_eq_nil_iff]
    intro u hu
    have := (hdoc.start_lt_stop hu).2
    simp only [decide_eq_true_eq]
    omega
  | @comment stop tokens text t above before _ ih =>
    obtain ⟨front, back, htokens, hstop, hlt, hfront, hback⟩ := tokenBefore?_eq_some hdoc before
    have hle := above.start_le hdoc
    -- before the last comment both ranges have the same tokens, and after it neither has any
    have hsame : (front.filter fun u => start ≤ u.span.start ∧ u.span.stop ≤ t.span.start) =
        front.filter fun u => start ≤ u.span.start ∧ u.span.stop ≤ stop := by
      apply List.filter_congr
      intro u hu
      have := hfront u hu
      simp only [decide_eq_decide]
      omega
    have hafter (n : Nat) (hn : n ≤ stop) :
        (back.filter fun u => start ≤ u.span.start ∧ u.span.stop ≤ n) = [] := by
      apply List.filter_eq_nil_iff.mpr
      intro u hu
      have := hback u hu
      simp only [decide_eq_true_eq]
      omega
    have hself : ¬ t.span.stop ≤ t.span.start := by omega
    rw [ih, tokensIn_eq hdoc, tokensIn_eq hdoc, htokens, List.filter_append, List.filter_append,
      List.filter_cons_of_neg (by simp [hself]), List.filter_cons_of_pos (by simp [hle, hstop]),
      hsame, hafter t.span.start (by omega), hafter stop (Nat.le_refl stop), List.append_nil]

/-- The comments of a block are comments of the document. -/
theorem mem_tokens (h : doc.CommentBlock start stop tokens text) :
    ∀ t ∈ tokens, t ∈ doc.tokens.toList ∧ t.isComment = true := by
  induction h with
  | empty => simp
  | comment _ before leads ih =>
    obtain ⟨front, back, htokens, _⟩ := tokenBefore?_eq_some hdoc before
    intro u hu
    rcases List.mem_append.mp hu with hu | hu
    · exact ih u hu
    · obtain rfl := List.mem_singleton.mp hu
      exact ⟨by simp [htokens], leads.comment⟩

omit hdoc in
/-- A block starts with its first comment, or where it stops. -/
theorem isBoundary_start (h : doc.CommentBlock start stop tokens text)
    (hcomments : ∀ t ∈ tokens, Text.isBoundary doc.source t.span.start = true)
    (hstop : Text.isBoundary doc.source stop = true) :
    Text.isBoundary doc.source start = true := by
  induction h with
  | empty => exact hstop
  | comment _ _ _ ih => exact ih (fun u hu => hcomments u (by simp [hu])) (hcomments _ (by simp))

/-- The text of a block is all that stands between its ends. -/
theorem text_eq (h : doc.CommentBlock start stop tokens text)
    (hexact : ∀ t ∈ tokens, t.span.Exact doc.source) :
    text = Text.slice doc.source ⟨start, stop⟩ := by
  induction h with
  | empty => simp
  | @comment stop tokens text t above before _ ih =>
    obtain ⟨_, _, _, hstop, hlt, _⟩ := tokenBefore?_eq_some hdoc before
    have hspan := hexact t (by simp)
    have habove : ∀ u ∈ tokens, u.span.Exact doc.source := fun u hu => hexact u (by simp [hu])
    have hstart := above.isBoundary_start (fun u hu => (habove u hu).start) hspan.start
    rw [ih habove, Token.text, Text.slice_append_slice hspan.start hspan.stop (by omega) hstop,
      Text.slice_append_slice hstart hspan.start (above.start_le hdoc) (by omega)]

end CommentBlock

variable {source : Text} {file : ParsedFile} {resolved : Bool}

/-- From the start of the leading comments down to the offset there is a block of comments, each of
which begins its line and leads to the next or to the offset. The block has all tokens in between and,
if their spans cut no character, all of the text; no comment leads to its start, so it cannot be
extended and is its own leading block. Nothing is asked of the offset. -/
theorem leading_comments_form_block (h : build source file resolved = .ok doc) (offset : Nat) :
    doc.leadingCommentStart offset ≤ offset ∧
    (∃ text, doc.CommentBlock (doc.leadingCommentStart offset) offset
        (doc.tokensIn ⟨doc.leadingCommentStart offset, offset⟩) text ∧
      ((∀ t ∈ doc.tokensIn ⟨doc.leadingCommentStart offset, offset⟩, t.span.Exact source) →
        text = Text.slice source ⟨doc.leadingCommentStart offset, offset⟩)) ∧
    (∀ t, doc.tokenBefore? (doc.leadingCommentStart offset) = some t →
      ¬ doc.Leads t (doc.leadingCommentStart offset)) ∧
    doc.leadingCommentStart (doc.leadingCommentStart offset) = doc.leadingCommentStart offset := by
  have hdoc := build_tokens_apart h
  obtain ⟨⟨tokens, text, hblock⟩, hmaximal⟩ := exists_commentBlock hdoc offset
  obtain rfl := hblock.tokens_eq hdoc
  have hsource : doc.source = source := by
    obtain ⟨_, _, _, rfl⟩ := build_eq_ok h
    rfl
  refine ⟨hblock.start_le hdoc, ⟨text, hblock, ?_⟩, hmaximal,
    leadingCommentStart_of_not_leads hdoc hmaximal⟩
  rw [← hsource]
  exact hblock.text_eq hdoc

/-- Two comments of different forms above a name, and a third one that shares its line with code. -/
def layeredText : Text := "x // no\n// é\n  /* b */\ny".toList

def layeredFile : ParsedFile where
  tree :=
    .node ⟨"Program", ⟨0, 25⟩, []⟩
      [.node ⟨"ExpressionStatement", ⟨0, 1⟩, []⟩ [], .node ⟨"ExpressionStatement", ⟨24, 25⟩, []⟩ []]
  comments := [⟨⟨2, 7⟩, false⟩, ⟨⟨8, 13⟩, false⟩, ⟨⟨16, 23⟩, true⟩]

theorem leading_comments_form_block_layeredText :
    ∃ doc, build layeredText layeredFile true = .ok doc ∧ doc.leadingCommentStart 24 = 8 ∧
      doc.CommentBlock 8 24
        [⟨.lineComment, ⟨8, 13⟩, true⟩, ⟨.blockComment, ⟨16, 23⟩, true⟩]
        "// é\n  /* b */\n".toList ∧
      doc.tokenBefore? 8 = some ⟨.lineComment, ⟨2, 7⟩, false⟩ ∧
      ¬ doc.Leads ⟨.lineComment, ⟨2, 7⟩, false⟩ 8 ∧ doc.leadingCommentStart 8 = 8 := by
  obtain ⟨doc, hbuild, htest⟩ : ∃ doc, build layeredText layeredFile true = .ok doc ∧
      (doc.leadingCommentStart 24 == 8 && doc.tokensIn ⟨8, 24⟩ ==
          [⟨.lineComment, ⟨8, 13⟩, true⟩, ⟨.blockComment, ⟨16, 23⟩, true⟩] &&
        doc.tokenBefore? 8 == some ⟨.lineComment, ⟨2, 7⟩, false⟩) = true :=
    exists_build_of_any (by decide +kernel)
  simp only [Bool.and_eq_true, beq_iff_eq] at htest
  obtain ⟨⟨hstart, htokens⟩, hbefore⟩ := htest
  obtain ⟨_, ⟨text, hblock, htext⟩, hmaximal, hstable⟩ := leading_comments_form_block hbuild 24
  rw [hstart] at hblock htext hmaximal hstable
  rw [htokens] at hblock htext
  have hslice := htext (by decide +kernel)
  rw [hslice] at hblock
  exact ⟨doc, hbuild, hstart, hblock, hbefore, hmaximal _ hbefore, hstable⟩

end ScriptLint.Document
