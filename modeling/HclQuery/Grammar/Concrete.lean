import HclQuery.Grammar.Source

/-!
# Grammar: concrete trees

A file is read to a concrete tree first, which holds all there is in the text besides blanks: names,
labels, expressions, braces and comments, each as a node that covers a part of the text.  The syntax
tree is built from the nodes, and comments are dropped on the way.

Main definitions:

- {lit}`Node`: a node of a concrete tree.
- {lit}`buildFile`: the syntax tree of a concrete tree.
- {lit}`Shift`: what is read of a text at once.
- {lit}`concrete`: the concrete tree of a text.
- {lit}`parse`: the syntax tree of a text.
-/

namespace HclQuery.Grammar

open Text HclQuery.Tree

/-! ## Nodes -/

/-- What a node of a concrete tree is. -/
inductive NodeKind where
  | file
  | body
  | attr
  | block
  | identifier
  /-- A label in quotes. -/
  | literal
  | expression
  /-- The lone object of a file. -/
  | object
  | blockStart
  | blockEnd
  | comment
  deriving DecidableEq, Repr

/-- A node of a concrete tree.  It begins where a text still goes on with {lit}`front`, and ends
where {lit}`rest` is left of it. -/
inductive Node where
  | mk (kind : NodeKind) (front rest : List Char) (children : List Node)

namespace Node

/-- What the node is. -/
def kind : Node → NodeKind
  | mk kind .. => kind

/-- The text from the beginning of the node on. -/
def front : Node → List Char
  | mk _ front .. => front

/-- What is left of the text at the end of the node. -/
def rest : Node → List Char
  | mk _ _ rest _ => rest

/-- The nodes that the node is made of. -/
def children : Node → List Node
  | mk _ _ _ children => children

/-- The text that the node covers. -/
def text (n : Node) : List Char :=
  consumed n.front n.rest

/-- The node is a comment. -/
def isComment (n : Node) : Bool :=
  n.kind == .comment

/-- The node is a body. -/
def isBody (n : Node) : Bool :=
  n.kind == .body

end Node

/-! ## Syntax trees of nodes -/

/-- The attribute made of nodes, given the name and the value that have been found.  The first
identifier is the name, and the first other node is the value; comments are neither. -/
def attributeFrom? (name value : Option (List Char)) : List Node → Option Attribute
  | [] => name.bind fun n => value.map fun v => ⟨String.ofList n, String.ofList v⟩
  | n :: ns =>
    if n.kind = .comment then attributeFrom? name value ns
    else if n.kind = .identifier ∧ name.isNone then attributeFrom? (some n.text) value ns
    else if value.isNone then attributeFrom? name (some n.text) ns
    else attributeFrom? name value ns

/-- The attribute of a node, if it has a name and a value. -/
def buildAttribute? (n : Node) : Option Attribute :=
  attributeFrom? none none n.children

/-- What has been found of a block. -/
structure BlockParts where
  ident : List Char
  labels : List String
  body : Body

/-- Nothing has been found of a block. -/
def BlockParts.none : BlockParts := ⟨[], [], []⟩

/-- The block with these parts. -/
def BlockParts.block (p : BlockParts) : Item :=
  .block (String.ofList p.ident) p.labels p.body

mutual

/-- The item that a node of a body is; what is neither an attribute nor a block is none. -/
def Node.item : Node → Body
  | .mk kind front rest children =>
    match kind with
    | .attr => ((buildAttribute? (.mk kind front rest children)).map Item.attr).toList
    | .block => [(BlockParts.none.addAll children).block]
    | _ => []

/-- The items of the nodes of a body. -/
def buildItems : List Node → Body
  | [] => []
  | n :: ns => n.item ++ buildItems ns

/-- The parts of a block with what a node adds to them.  The first identifier is the name and the
others are labels; braces and comments add nothing. -/
def BlockParts.add (p : BlockParts) : Node → BlockParts
  | .mk kind front rest children =>
    let text := consumed front rest
    match kind with
    | .identifier =>
      if p.ident.isEmpty then { p with ident := text }
      else { p with labels := p.labels ++ [String.ofList text] }
    | .literal => { p with labels := p.labels ++ [Label.unquote (String.ofList text)] }
    | .body => { p with body := buildItems children }
    | _ => p

/-- The parts of a block with what nodes add to them. -/
def BlockParts.addAll (p : BlockParts) : List Node → BlockParts
  | [] => p
  | n :: ns => (p.add n).addAll ns

end

/-- The syntax tree of a file: the items of its body, if it has one. -/
def buildFile (root : Node) : Body :=
  match root.children.find? Node.isBody with
  | some n => buildItems n.children
  | none => []

/-! ## Comments -/

mutual

/-- The comments in front of the first token of a text. -/
def comments : List Char → List Node
  | [] => []
  | c :: t =>
    if isSpace c then comments t
    else if c = '#' then lineComments (c :: t) t
    else if c = '/' then
      match t with
      | [] => []
      | d :: u =>
        if d = '/' then lineComments (c :: d :: u) u
        else if d = '*' then blockComments (c :: d :: u) u
        else []
    else []

/-- The line comment that begins with {lit}`front`, and the comments after it. -/
def lineComments (front : List Char) : List Char → List Node
  | [] => [.mk .comment front [] []]
  | c :: t =>
    if c = '\n' then .mk .comment front (c :: t) [] :: comments t
    else if c = '\x00' then [.mk .comment front (c :: t) []]
    else lineComments front t

/-- The block comment that begins with {lit}`front`, and the comments after it; none if it is not
closed. -/
def blockComments (front : List Char) : List Char → List Node
  | [] => []
  | c :: t =>
    if c = '\x00' then []
    else if c = '*' then
      match t with
      | [] => []
      | d :: u =>
        if d = '/' then .mk .comment front u [] :: comments u else blockComments front (d :: u)
    else blockComments front t

end

/-! ## Reading nodes -/

/-- The labels of a block with its opening brace, of which `count` labels have been read. -/
def labelNodes (count : Nat) (t : List Char) : Except Stuck (List Node × List Char) :=
  match _h : skipTrivia t with
  | [] => .error ⟨.header count, []⟩
  | c :: u =>
    if c = '{' then .ok (comments t ++ [.mk .blockStart (c :: u) u []], u)
    else if c = '"' then
      match _h2 : literal? u with
      | none => .error ⟨.label, c :: u⟩
      | some v =>
        match labelNodes (count + 1) v with
        | .error e => .error e
        | .ok (ns, w) => .ok (comments t ++ .mk .literal (c :: u) v [] :: ns, w)
    else
      match _h3 : identifier? (c :: u) with
      | none => .error ⟨.header count, c :: u⟩
      | some (_, v) =>
        match labelNodes (count + 1) v with
        | .error e => .error e
        | .ok (ns, w) => .ok (comments t ++ .mk .identifier (c :: u) v [] :: ns, w)
termination_by t.length
decreasing_by
  · have h1 := skipTrivia_length_le t
    have h2 := literal?_length _h2
    simp only [_h, List.length_cons] at h1
    omega
  · have h1 := skipTrivia_length_le t
    have h3 := identifier?_length _h3
    simp only [_h] at h1
    omega

/-- What is read of a text at once. -/
inductive Shift where
  /-- A node that is complete: an attribute or a comment. -/
  | node (n : Node)
  /-- A block up to its opening brace, from the text that it begins with. -/
  | enter (front : List Char) (header : List Node)
  /-- The brace that closes the innermost block. -/
  | leave (brace : Node)

/-- The rest of an item after its name, which is a node. -/
def shiftAfterName (name : Node) (t : List Char) : Except Stuck (Shift × List Char) :=
  match skipTrivia t with
  | '=' :: u =>
    let v := skipTrivia u
    match scan v with
    | .ok w =>
      let children := name :: (comments t ++ (comments u ++ [.mk .expression v w []]))
      .ok (.node (.mk .attr name.front w children), w)
    | .error (s, w) => .error ⟨.expression s, w⟩
  | _ =>
    match labelNodes 0 t with
    | .ok (ns, v) => .ok (.enter name.front (name :: ns), v)
    | .error e => .error e

/-- What is read after the comments in front of a text, inside so many blocks; none at the end of
the text. -/
def shift? (depth : Nat) (t : List Char) : Except Stuck (Option (Shift × List Char)) :=
  match skipTrivia t with
  | [] => if depth = 0 then .ok none else .error ⟨.item depth, []⟩
  | c :: u =>
    if c = '}' then
      if depth = 0 then .error ⟨.item depth, c :: u⟩
      else .ok (some (.leave (.mk .blockEnd (c :: u) u []), u))
    else
      match identifier? (c :: u) with
      | none => .error ⟨.item depth, c :: u⟩
      | some (_, v) =>
        match shiftAfterName (.mk .identifier (c :: u) v []) v with
        | .ok x => .ok (some x)
        | .error e => .error e

/-! ## Comments are passed over -/

theorem Node.kind_of_isComment {n : Node} (h : n.isComment = true) : n.kind = .comment := by
  simpa [isComment] using h

/-- Only attributes and blocks are items. -/
theorem Node.item_of_ne {n : Node} (hattribute : n.kind ≠ .attr) (hblock : n.kind ≠ .block) :
    n.item = [] := by
  rcases n with ⟨kind, front, rest, children⟩
  rw [item]
  · exact hattribute
  · exact hblock

/-- Only names, labels and a body belong to a block. -/
theorem BlockParts.add_of_ne {n : Node} (hidentifier : n.kind ≠ .identifier)
    (hliteral : n.kind ≠ .literal) (hbody : n.kind ≠ .body) (p : BlockParts) : p.add n = p := by
  rcases n with ⟨kind, front, rest, children⟩
  rw [add]
  · exact hidentifier
  · exact hliteral
  · exact hbody

/-- A comment is no item. -/
theorem Node.item_comment {n : Node} (h : n.isComment = true) : n.item = [] := by
  have hkind := kind_of_isComment h
  exact item_of_ne (by simp [hkind]) (by simp [hkind])

/-- A comment adds nothing to a block. -/
theorem BlockParts.add_comment {n : Node} (h : n.isComment = true) (p : BlockParts) :
    p.add n = p := by
  have hkind := Node.kind_of_isComment h
  exact add_of_ne (by simp [hkind]) (by simp [hkind]) (by simp [hkind]) p

/-- The nodes of two lists are added one list after the other. -/
theorem BlockParts.addAll_append (p : BlockParts) (ns ms : List Node) :
    p.addAll (ns ++ ms) = (p.addAll ns).addAll ms := by
  induction ns generalizing p with
  | nil => rfl
  | cons n ns ih => exact ih (p.add n)

section

variable {cs : List Node} (h : ∀ n ∈ cs, n.isComment = true)
include h

/-- Comments are neither the name nor the value of an attribute. -/
theorem attributeFrom?_comments (name value : Option (List Char)) (ns : List Node) :
    attributeFrom? name value (cs ++ ns) = attributeFrom? name value ns := by
  induction cs with
  | nil => rfl
  | cons n cs ih =>
    rw [List.forall_mem_cons] at h
    rw [List.cons_append, attributeFrom?, if_pos (Node.kind_of_isComment h.1), ih h.2]

/-- Comments are no items. -/
theorem buildItems_comments : buildItems cs = [] := by
  induction cs with
  | nil => rfl
  | cons n cs ih =>
    rw [List.forall_mem_cons] at h
    rw [buildItems, Node.item_comment h.1, ih h.2, List.nil_append]

/-- Comments add nothing to a block. -/
theorem BlockParts.addAll_comments (p : BlockParts) : p.addAll cs = p := by
  induction cs with
  | nil => rfl
  | cons n cs ih =>
    rw [List.forall_mem_cons] at h
    rw [addAll, add_comment h.1, ih h.2]

end

mutual

/-- Nothing but comments is found between tokens. -/
theorem isComment_of_mem_comments (t : List Char) : ∀ n ∈ comments t, n.isComment = true := by
  cases t with
  | nil => simp [comments]
  | cons c t =>
    rw [comments.eq_def]
    simp only
    split
    · exact isComment_of_mem_comments t
    · split
      · exact isComment_of_mem_lineComments (c :: t) t
      · split
        · cases t with
          | nil => simp
          | cons d u =>
            simp only
            split
            · exact isComment_of_mem_lineComments (c :: d :: u) u
            · split
              · exact isComment_of_mem_blockComments (c :: d :: u) u
              · simp
        · simp

/-- After a line comment as well, nothing but comments is found. -/
theorem isComment_of_mem_lineComments (front t : List Char) :
    ∀ n ∈ lineComments front t, n.isComment = true := by
  cases t with
  | nil => simp [lineComments, Node.isComment, Node.kind]
  | cons c t =>
    rw [lineComments]
    split
    · exact List.forall_mem_cons.2 ⟨rfl, isComment_of_mem_comments t⟩
    · split
      · simp [Node.isComment, Node.kind]
      · exact isComment_of_mem_lineComments front t

/-- After a block comment as well, nothing but comments is found. -/
theorem isComment_of_mem_blockComments (front t : List Char) :
    ∀ n ∈ blockComments front t, n.isComment = true := by
  cases t with
  | nil => simp [blockComments]
  | cons c t =>
    rw [blockComments.eq_def]
    simp only
    split
    · simp
    · split
      · cases t with
        | nil => simp
        | cons d u =>
          simp only
          split
          · exact List.forall_mem_cons.2 ⟨rfl, isComment_of_mem_comments u⟩
          · exact isComment_of_mem_blockComments front (d :: u)
      · exact isComment_of_mem_blockComments front t

end

/-! ## What is shifted is what a step does -/

/-- Two readers that fail alike, or that succeed with values that stand for each other in front of
the same text. -/
inductive Agree {α β : Type} (R : α → β → Prop) :
    Except Stuck (α × List Char) → Except Stuck (β × List Char) → Prop where
  | error (e : Stuck) : Agree R (.error e) (.error e)
  | ok {a : α} {b : β} (rest : List Char) (h : R a b) : Agree R (.ok (a, rest)) (.ok (b, rest))

/-- Where one of two readers fails, so does the other. -/
theorem Agree.eq_error {α β : Type} {R : α → β → Prop} {e : Stuck}
    {y : Except Stuck (β × List Char)} (h : Agree R (.error e) y) : y = .error e := by
  cases h
  rfl

/-- Where one of two readers succeeds, the other does with a value that is stood for. -/
theorem Agree.eq_ok {α β : Type} {R : α → β → Prop} {a : α} {rest : List Char}
    {y : Except Stuck (β × List Char)} (h : Agree R (.ok (a, rest)) y) :
    ∃ b, y = .ok (b, rest) ∧ R a b := by
  cases h with
  | ok rest h => exact ⟨_, rfl, h⟩

/-- Readers agree on what becomes of their values when these stand for each other. -/
theorem Agree.map {α β γ δ : Type} {R : α → β → Prop} {S : γ → δ → Prop}
    {x : Except Stuck (α × List Char)} {y : Except Stuck (β × List Char)} (h : Agree R x y)
    {f : α → γ} {g : β → δ} (hfg : ∀ a b, R a b → S (f a) (g b)) :
    Agree S (x.map fun p => (f p.1, p.2)) (y.map fun p => (g p.1, p.2)) := by
  cases h with
  | error e => exact .error e
  | ok rest h => exact .ok rest (hfg _ _ h)

/-- Nodes of a header that some labels are built of. -/
def HoldsLabels (header : List Node) (ls : List String) : Prop :=
  ∀ p : BlockParts, p.ident ≠ [] → p.addAll header = { p with labels := p.labels ++ ls }

/-- What is shifted stands for a step. -/
inductive StandsFor : Shift → Step → Prop where
  | set {n : Node} {name raw : List Char} (kind : n.kind = .attr)
    (built : buildAttribute? n = some ⟨String.ofList name, String.ofList raw⟩) :
    StandsFor (.node n) (.set name raw)
  | enter {front : List Char} {header : List Node} {name : List Char} {labels : List String}
    (built : BlockParts.none.addAll header = ⟨name, labels, []⟩) :
    StandsFor (.enter front header) (.enter name labels)
  | leave {brace : Node} (kind : brace.kind = .blockEnd) : StandsFor (.leave brace) .leave

/-- Comments and one label more. -/
theorem HoldsLabels.cons {header : List Node} {ls : List String} (h : HoldsLabels header ls)
    (t : List Char) {n : Node} {l : String}
    (hn : ∀ p : BlockParts, p.ident ≠ [] → p.add n = { p with labels := p.labels ++ [l] }) :
    HoldsLabels (comments t ++ n :: header) (l :: ls) := by
  intro p hp
  rw [BlockParts.addAll_append, BlockParts.addAll_comments (isComment_of_mem_comments t),
    BlockParts.addAll, hn p hp, h ⟨p.ident, p.labels ++ [l], p.body⟩ hp, List.append_assoc,
    List.singleton_append]

/-- The node of an identifier covers its name. -/
theorem text_of_identifier? {t name rest : List Char} (h : identifier? t = some (name, rest)) :
    consumed t rest = name := by
  rw [← identifier?_append h, consumed_append]

/-- A name has at least one character. -/
theorem ne_nil_of_identifier? {t name rest : List Char} (h : identifier? t = some (name, rest)) :
    name ≠ [] := by
  rintro rfl
  have hlength := identifier?_length h
  rw [← identifier?_append h, List.nil_append] at hlength
  exact absurd hlength (Nat.lt_irrefl _)

/-- The nodes of a header hold its labels. -/
theorem labelNodes_agrees (count : Nat) (t : List Char) :
    Agree HoldsLabels (labelNodes count t) (labels count t) := by
  fun_induction labelNodes count t with
  | case1 count t ht =>
    rw [labels.eq_def, ht]
    exact .error _
  | case2 count t u ht =>
    rw [labels.eq_def, ht]
    simp only [if_true]
    refine .ok u fun p hp => ?_
    rw [BlockParts.addAll_append, BlockParts.addAll_comments (isComment_of_mem_comments t),
      BlockParts.addAll, BlockParts.addAll, List.append_nil]
    apply BlockParts.add_of_ne <;> simp [Node.kind]
  | case3 count t u hliteral ht _ =>
    rw [labels.eq_def, ht]
    simp only [if_true]
    rw [hliteral]
    exact .error _
  | case4 count t u v hliteral e he ht _ ih =>
    rw [he] at ih
    rw [labels.eq_def, ht]
    simp only [if_true]
    rw [hliteral]
    simp only [ih.eq_error]
    exact .error _
  | case5 count t u v hliteral header w hheader ht _ ih =>
    rw [hheader] at ih
    obtain ⟨ls, hls, hholds⟩ := ih.eq_ok
    rw [labels.eq_def, ht]
    simp only [if_true]
    rw [hliteral]
    simp only [hls]
    exact .ok w (hholds.cons t fun p _ => by rw [BlockParts.add])
  | case6 count t c u ht hbrace hquote hname =>
    rw [labels.eq_def, ht]
    simp only [hbrace, hquote, if_false]
    rw [hname]
    exact .error _
  | case7 count t c u ht hbrace hquote name v hname e he ih =>
    rw [he] at ih
    rw [labels.eq_def, ht]
    simp only [hbrace, hquote, if_false]
    rw [hname]
    simp only [ih.eq_error]
    exact .error _
  | case8 count t c u ht hbrace hquote name v hname header w hheader ih =>
    rw [hheader] at ih
    obtain ⟨ls, hls, hholds⟩ := ih.eq_ok
    rw [labels.eq_def, ht]
    simp only [hbrace, hquote, if_false]
    rw [hname]
    simp only [hls]
    refine .ok w (hholds.cons t fun p hp => ?_)
    rw [BlockParts.add, text_of_identifier? hname, if_neg (by simpa using hp)]

/-- The comments around an equals sign are no part of the attribute. -/
theorem buildAttribute?_shifted {name : List Char} {n : Node} (hkind : n.kind = .identifier)
    (hname : n.text = name) (t u v w front rest : List Char) :
    buildAttribute? (.mk .attr front rest
        (n :: (comments t ++ (comments u ++ [.mk .expression v w []])))) =
      some ⟨String.ofList name, String.ofList (consumed v w)⟩ := by
  have hcomment : n.kind ≠ .comment := by simp [hkind]
  rw [buildAttribute?, Node.children, attributeFrom?, if_neg hcomment, if_pos ⟨hkind, rfl⟩, hname,
    attributeFrom?_comments (isComment_of_mem_comments t),
    attributeFrom?_comments (isComment_of_mem_comments u)]
  rfl

/-- Without an equals sign, a name begins the header of a block. -/
theorem shiftAfterName_of_ne {t : List Char} (h : ∀ u, skipTrivia t ≠ '=' :: u) (n : Node) :
    shiftAfterName n t =
      (labelNodes 0 t).map fun x => (.enter n.front (n :: x.1), x.2) := by
  rw [shiftAfterName]
  split
  · next u ht => exact absurd ht (h u)
  · rcases labelNodes 0 t with e | ⟨header, v⟩ <;> rfl

/-- The steps take a name without an equals sign for a block as well. -/
theorem afterName_of_ne {t : List Char} (h : ∀ u, skipTrivia t ≠ '=' :: u) (name : List Char) :
    afterName name t = (labels 0 t).map fun x => (.enter name x.1, x.2) := by
  rw [afterName]
  split
  · next u ht => exact absurd ht (h u)
  · rcases labels 0 t with e | ⟨ls, v⟩ <;> rfl

/-- The node of a name begins a block of that name, to which its labels are added. -/
theorem StandsFor.header {name : List Char} (hne : name ≠ []) {n : Node}
    (hkind : n.kind = .identifier) (hname : n.text = name) {header : List Node} {ls : List String}
    (hholds : HoldsLabels header ls) :
    StandsFor (.enter n.front (n :: header)) (.enter name ls) := by
  have hadd : BlockParts.none.add n = ⟨name, [], []⟩ := by
    rcases n with ⟨kind, front, rest, children⟩
    obtain rfl : kind = .identifier := hkind
    exact congrArg (BlockParts.mk · [] []) hname
  refine .enter ?_
  rw [BlockParts.addAll, hadd]
  exact hholds ⟨name, [], []⟩ hne

/-- What is shifted after a name stands for the step of that name. -/
theorem shiftAfterName_agrees {name : List Char} (hne : name ≠ []) {n : Node}
    (hkind : n.kind = .identifier) (hname : n.text = name) (t : List Char) :
    Agree StandsFor (shiftAfterName n t) (afterName name t) := by
  by_cases hassign : ∃ u, skipTrivia t = '=' :: u
  · obtain ⟨u, ht⟩ := hassign
    simp only [shiftAfterName, afterName, ht]
    rcases scan (skipTrivia u) with ⟨s, w⟩ | w
    · exact .error _
    · exact .ok w (.set rfl (buildAttribute?_shifted hkind hname t u _ w _ w))
  · have hother : ∀ u, skipTrivia t ≠ '=' :: u := fun u ht => hassign ⟨u, ht⟩
    rw [shiftAfterName_of_ne hother, afterName_of_ne hother]
    exact (labelNodes_agrees 0 t).map (f := fun ns => Shift.enter n.front (n :: ns))
      (g := Step.enter name) fun _ _ hholds => StandsFor.header hne hkind hname hholds

/-- What is read after comments stands for the next step. -/
theorem shift?_agrees (depth : Nat) (t : List Char) :
    (∃ e, shift? depth t = .error e ∧ step? depth t = .error e) ∨
      (shift? depth t = .ok none ∧ step? depth t = .ok none) ∨
      ∃ x y r, shift? depth t = .ok (some (x, r)) ∧ step? depth t = .ok (some (y, r)) ∧
        StandsFor x y := by
  rcases hskip : skipTrivia t with _ | ⟨c, u⟩
  · simp only [shift?, step?, hskip]
    by_cases hdepth : depth = 0
    · exact .inr (.inl ⟨if_pos hdepth, if_pos hdepth⟩)
    · exact .inl ⟨_, if_neg hdepth, if_neg hdepth⟩
  · simp only [shift?, step?, hskip]
    by_cases hbrace : c = '}'
    · simp only [hbrace, if_true]
      by_cases hdepth : depth = 0
      · exact .inl ⟨_, if_pos hdepth, if_pos hdepth⟩
      · exact .inr (.inr ⟨_, _, u, if_neg hdepth, if_neg hdepth, .leave rfl⟩)
    · simp only [hbrace, if_false]
      rcases hname : identifier? (c :: u) with _ | ⟨name, v⟩
      · exact .inl ⟨_, rfl, rfl⟩
      · have hagree := shiftAfterName_agrees (n := .mk .identifier (c :: u) v [])
          (ne_nil_of_identifier? hname) rfl (text_of_identifier? hname) v
        rcases hx : shiftAfterName (.mk .identifier (c :: u) v []) v with e | ⟨x, r⟩
        · rw [hx] at hagree
          exact .inl ⟨e, by simp only [hx], by simp only [hagree.eq_error]⟩
        · rw [hx] at hagree
          obtain ⟨y, hy, hstands⟩ := hagree.eq_ok
          exact .inr (.inr ⟨x, y, r, by simp only [hx], by simp only [hy], hstands⟩)

/-- What is read takes at least one character. -/
theorem shift?_length {depth : Nat} {t r : List Char} {x : Shift}
    (h : shift? depth t = .ok (some (x, r))) : r.length < t.length := by
  rcases shift?_agrees depth t with ⟨e, he, -⟩ | ⟨hnone, -⟩ | ⟨x', y, r', hx, hy, -⟩
  · rw [h] at he
    cases he
  · rw [h] at hnone
    cases hnone
  · rw [h] at hx
    cases hx
    exact step?_length hy

/-! ## Putting nodes together -/

/-- The depth after something has been read. -/
def Shift.depth (depth : Nat) : Shift → Nat
  | node .. => depth
  | enter .. => depth + 1
  | leave .. => depth - 1

/-- All that is read of a text, inside so many blocks. -/
def shifts (depth : Nat) (t : List Char) : Except Stuck (List Shift) :=
  match _h : shift? depth t with
  | .error e => .error e
  | .ok none => .ok ((comments t).map .node)
  | .ok (some (x, r)) =>
    match shifts (x.depth depth) r with
    | .error e => .error e
    | .ok xs => .ok ((comments t).map .node ++ x :: xs)
termination_by t.length
decreasing_by exact shift?_length _h

/-- A block that is open: the text that it begins with, its header, and the nodes before it, the
last one first. -/
structure OpenBlock where
  front : List Char
  header : List Node
  before : List Node

/-- The nodes without the comments at their end, and these comments. -/
def splitTrailing (ns : List Node) : List Node × List Node :=
  ((ns.reverse.dropWhile Node.isComment).reverse, (ns.reverse.takeWhile Node.isComment).reverse)

/-- The nodes between two braces, or of a whole file.  The items are a body, together with the
comments between them; comments in front of the first item or after the last one stand beside the
body.  Without items there is no body. -/
def enclose (ns : List Node) : List Node :=
  let (items, trailing) := splitTrailing (ns.dropWhile Node.isComment)
  match items.head?, items.getLast? with
  | some first, some last =>
    ns.takeWhile Node.isComment ++ .mk .body first.front last.rest items :: trailing
  | _, _ => ns

/-- The nodes of what is read, inside open blocks, given the nodes so far, the last one first. -/
def assemble (opened : List OpenBlock) (ns : List Node) : List Shift → List Node
  | [] => ns.reverse
  | .node n :: xs => assemble opened (n :: ns) xs
  | .enter front header :: xs => assemble (⟨front, header, ns⟩ :: opened) [] xs
  | .leave brace :: xs =>
    match opened with
    | [] => assemble [] ns xs
    | o :: os =>
      let children := o.header ++ (enclose ns.reverse ++ [brace])
      assemble os (.mk .block o.front brace.rest children :: o.before) xs

/-- The concrete tree of a file that is one object, of which the brace has been read; `t` is the
whole text. -/
def concreteObject (t u : List Char) : Except Stuck Node :=
  match scanObject u with
  | .error (s, v) => .error ⟨.expression s, v⟩
  | .ok v =>
    match skipTrivia v with
    | [] => .ok (.mk .file t [] (comments t ++ .mk .object (skipTrivia t) v [] :: comments v))
    | w => .error ⟨.afterObject, w⟩

/-- The concrete tree of a text, or the place where the text cannot go on. -/
def concrete (t : List Char) : Except Stuck Node :=
  let u := dropMark t
  match skipTrivia u with
  | '{' :: v => concreteObject u v
  | _ => (shifts 0 u).map fun xs => .mk .file u [] (enclose (assemble [] [] xs))

/-- The syntax tree of a text, or the place where the text cannot go on. -/
def parse (t : List Char) : Except Stuck Body :=
  (concrete t).map buildFile

end HclQuery.Grammar
