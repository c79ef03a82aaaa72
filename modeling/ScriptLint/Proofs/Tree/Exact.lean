import ScriptLint.Proofs.Text.Cut
import ScriptLint.Proofs.Token.Order

/-!
Documents whose spans cut no character. What is asked of a parser is that the spans it reports for
constructs and comments have their ends at boundaries of the text; order and bounds are checked by
the index itself. `Document.build_exact` carries this over to the nodes and tokens of a document. A
comment without a text would still take a byte, and may end inside a character; where the parser
reports no such comment, the tokens of comments are exact (`Document.build_comments_exact`).
-/
namespace ScriptLint

mutual

/-- The constructs of a tree in visiting order. -/
def Tree.elements : Tree → List Element
  | .node element children => element :: Tree.elementsAll children

def Tree.elementsAll : List Tree → List Element
  | [] => []
  | t :: ts => t.elements ++ Tree.elementsAll ts

end

/-- Both ends of the span are boundaries of the text. -/
structure Span.Exact (source : Text) (span : Span) : Prop where
  start : Text.isBoundary source span.start = true
  stop : Text.isBoundary source span.stop = true

instance (source : Text) (span : Span) : Decidable (span.Exact source) :=
  decidable_of_iff
    (Text.isBoundary source span.start = true ∧ Text.isBoundary source span.stop = true)
    ⟨fun h => ⟨h.1, h.2⟩, fun h => ⟨h.start, h.stop⟩⟩

/-- The constructs and the comments of the file have exact spans. -/
structure ParsedFile.Exact (source : Text) (file : ParsedFile) : Prop where
  elements : ∀ e ∈ file.tree.elements, e.span.Exact source
  comments : ∀ c ∈ file.comments, c.span.Exact source

/-- Whatever text the parser accepts, it reports exact spans of it. -/
def ExactParser (parser : Parser) : Prop :=
  ∀ source file, parser source = .ok file → file.Exact source

/-- The comments that the parser reports have a text, be it only the signs that open them. -/
def NonemptyComments (parser : Parser) : Prop :=
  ∀ source file, parser source = .ok file → ∀ c ∈ file.comments, c.span.start < c.span.stop

/-- Nodes have ordered, exact spans; tokens stand apart, and comments start at boundaries. -/
structure Document.Exact (doc : Document) : Prop where
  ordered : ∀ id, (doc.span id).start ≤ (doc.span id).stop
  exact : ∀ id, (doc.span id).Exact doc.source
  tokens_apart : Token.Apart 0 doc.tokens.toList
  comment_start : ∀ t ∈ doc.tokens.toList, t.isComment = true →
    Text.isBoundary doc.source t.span.start = true

/-- The tokens of comments have exact spans. -/
def Document.CommentsExact (doc : Document) : Prop :=
  ∀ t ∈ doc.tokens.toList, t.isComment = true → t.span.Exact doc.source

mutual

theorem Tree.drafts_spans (resolved : Bool) (outer : Option (NodeId × Element)) (id : NodeId) :
    ∀ t : Tree, (t.drafts resolved outer id).map (·.node.span) = t.elements.map (·.span)
  | .node element children => by
    rw [Tree.drafts, Tree.elements, List.map_cons, List.map_cons,
      Tree.draftsAll_spans resolved (id, element) (id + 1) children]

theorem Tree.draftsAll_spans (resolved : Bool) (outer : NodeId × Element) (next : NodeId) :
    ∀ ts : List Tree,
      (Tree.draftsAll resolved outer next ts).map (·.node.span) =
        (Tree.elementsAll ts).map (·.span)
  | [] => by rw [Tree.draftsAll, Tree.elementsAll]; rfl
  | t :: ts => by
    rw [Tree.draftsAll, Tree.elementsAll, List.map_append, List.map_append,
      Tree.drafts_spans resolved (some outer) next t,
      Tree.draftsAll_spans resolved outer (next + t.size) ts]

end

namespace Arena

theorem ordered_of_fault?_eq_none {size : Nat} {nodes : Array Node} {node : Node}
    (h : fault? size nodes node = none) :
    node.span.start ≤ node.span.stop ∧ node.span.stop ≤ size := by
  rw [fault?] at h
  split at h
  · cases h
  · omega

/-- Reserved comments are comments of the file. -/
theorem comment_of_reserved {nodes : List Node} {comments : List Comment} {offset stop : Nat}
    {kind : TokenKind} (h : reserved nodes comments offset = some (stop, kind))
    (hkind : kind ≠ .literal) : ∃ comment ∈ comments, comment.span = ⟨offset, stop⟩ := by
  rw [reserved] at h
  split at h
  · rename_i comment hlast
    have hmem := List.mem_of_getLast? hlast
    simp only [List.mem_filter, beq_iff_eq] at hmem
    cases h
    exact ⟨comment, hmem.1, by rw [← hmem.2]⟩
  · dsimp only at h
    obtain ⟨_, _, he⟩ := Option.map_eq_some_iff.mp h
    cases he
    exact absurd rfl hkind

end Arena

namespace Document

variable {source : Text} {file : ParsedFile} {resolved : Bool} {doc : Document}

/-- What is known of a document that was built: no node of its skeleton is at fault. -/
theorem build_eq_ok (h : build source file resolved = .ok doc) :
    ∃ nodes : List Node,
      nodes.map (·.span) = file.tree.elements.map (·.span) ∧
      (∀ node ∈ nodes, node.span.start ≤ node.span.stop ∧ node.span.stop ≤ Text.width source) ∧
      doc = ⟨source, nodes.toArray,
        (Token.tokenize source (Arena.reserved nodes file.comments)).toArray⟩ := by
  rw [build] at h
  dsimp only at h
  split at h
  · cases h
  · rename_i hfault
    cases h
    refine ⟨_, ?_, ?_, rfl⟩
    · rw [← Tree.drafts_spans resolved none 0 file.tree, List.map_map]
      rfl
    · intro node hnode
      obtain ⟨draft, hdraft, rfl⟩ := List.mem_map.mp hnode
      have hnone := List.findSome?_eq_none_iff.mp hfault draft.node
        (List.mem_map_of_mem (f := (·.node)) hdraft)
      exact Arena.ordered_of_fault?_eq_none hnone

/-- A token of a comment is a comment of the file. It stops with it, but for the byte that an empty
one takes. -/
theorem comment_of_isComment {nodes : List Node} {t : Token}
    (ht : t ∈ Token.tokenize source (Arena.reserved nodes file.comments))
    (hc : t.isComment = true) :
    ∃ comment ∈ file.comments, comment.span.start = t.span.start ∧
      t.span.stop = min (max comment.span.stop (t.span.start + 1)) (Text.width source) := by
  obtain ⟨stop, hreserved, hstop⟩ := Token.reserved_of_isComment ht hc
  have hkind : t.kind ≠ .literal := by
    intro hk
    simp [Token.isComment, hk] at hc
  obtain ⟨comment, hcomment, hspan⟩ := Arena.comment_of_reserved hreserved hkind
  exact ⟨comment, hcomment, by rw [hspan], by rw [hspan]; exact hstop⟩

/-- A document built from a file with exact spans is exact. -/
theorem build_exact (hfile : file.Exact source) (h : build source file resolved = .ok doc) :
    doc.Exact ∧ doc.source = source := by
  obtain ⟨nodes, hspans, hordered, rfl⟩ := build_eq_ok h
  have hnode : ∀ id, (Arena.get nodes.toArray id).span = ⟨0, 0⟩ ∨
      ∃ node ∈ nodes, (Arena.get nodes.toArray id).span = node.span := by
    intro id
    by_cases hid : id < nodes.length
    · exact .inr ⟨nodes[id], List.getElem_mem hid, by simp [Arena.get, Array.getD, hid]⟩
    · exact .inl (by simp [Arena.get, Array.getD, hid, Node.absent])
  refine ⟨⟨?_, ?_, ?_, ?_⟩, rfl⟩
  · intro id
    rcases hnode id with hzero | ⟨node, hmem, hspan⟩
    · simp only [span, Document.node, hzero, Nat.le_refl]
    · simp only [span, Document.node, hspan]
      exact (hordered node hmem).1
  · intro id
    rcases hnode id with hzero | ⟨node, hmem, hspan⟩
    · simp only [span, Document.node, hzero]
      exact ⟨Text.isBoundary_zero _, Text.isBoundary_zero _⟩
    · have helement : node.span ∈ file.tree.elements.map (·.span) := by
        rw [← hspans]
        exact List.mem_map_of_mem (f := (·.span)) hmem
      obtain ⟨e, he, hes⟩ := List.mem_map.mp helement
      simp only [span, Document.node, hspan, ← hes]
      exact hfile.elements e he
  · exact Token.tokenize_apart source _
  · intro t ht hc
    obtain ⟨comment, hcomment, hstart, _⟩ := comment_of_isComment ht hc
    exact hstart ▸ (hfile.comments comment hcomment).start

/-- Comments that have a text are tokens with exact spans. -/
theorem build_comments_exact (hfile : file.Exact source)
    (hcomments : ∀ c ∈ file.comments, c.span.start < c.span.stop)
    (h : build source file resolved = .ok doc) : doc.CommentsExact := by
  obtain ⟨nodes, _, _, rfl⟩ := build_eq_ok h
  intro t ht hc
  obtain ⟨comment, hcomment, hstart, hstop⟩ := comment_of_isComment ht hc
  have hexact := hfile.comments comment hcomment
  have hfilled := hcomments comment hcomment
  have hwidth := Text.le_width_of_isBoundary hexact.stop
  have hsame : t.span.stop = comment.span.stop := by omega
  exact ⟨hstart ▸ hexact.start, hsame ▸ hexact.stop⟩

/-- A document of which a test is known is there. -/
theorem exists_build_of_any {test : Document → Bool}
    (h : (build source file resolved).toOption.any test = true) :
    ∃ doc, build source file resolved = .ok doc ∧ test doc = true := by
  cases hbuild : build source file resolved with
  | error error =>
    rw [hbuild] at h
    cases h
  | ok doc =>
    rw [hbuild] at h
    exact ⟨doc, rfl, h⟩

end Document

end ScriptLint
