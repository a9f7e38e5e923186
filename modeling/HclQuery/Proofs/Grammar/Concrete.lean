import HclQuery.Grammar.Concrete
import HclQuery.Proofs.Grammar.Items

/-!
# Concrete trees and steps

The syntax tree that is built from the concrete tree of a text is the one that its steps build, so
what is said about steps holds of what is built.  Comments make no difference to it, wherever in the
concrete tree they stand.

Main definitions:

- {lit}`StandForAll`: all that is read of a text stands for its steps.
- {lit}`Node.strip`: a concrete tree without its comments.

Main results:

- Theorem {lit}`enclose_cases`: what stands between two braces.
- Theorem {lit}`buildItems_assemble`: the items of nodes that are put together.
- Theorem {lit}`parse_of_brace`, {lit}`parse_of_not_brace`: the syntax tree of a text.
- Theorem {lit}`buildFile_strip`: comments make no difference to the syntax tree.
-/

namespace HclQuery.Grammar

open Text HclQuery.Tree

/-! ## What is read of a text -/

/-- All that is read stands for steps; comments stand for none. -/
inductive StandForAll : List Shift → List Step → Prop where
  | comments {cs : List Node} (hcs : ∀ n ∈ cs, n.isComment = true) :
    StandForAll (cs.map .node) []
  | cons {cs : List Node} {x : Shift} {y : Step} {xs : List Shift} {ys : List Step}
    (hcs : ∀ n ∈ cs, n.isComment = true) (h : StandsFor x y) (htail : StandForAll xs ys) :
    StandForAll (cs.map .node ++ x :: xs) (y :: ys)

/-- What is shifted leads as deep as the step that it stands for. -/
theorem StandsFor.depth_eq {x : Shift} {y : Step} (h : StandsFor x y) (depth : Nat) :
    x.depth depth = y.depth depth := by
  cases h <;> rfl

/-- Where nothing can be shifted, reading a text fails. -/
theorem shifts_of_error {depth : Nat} {t : List Char} {e : Stuck}
    (h : shift? depth t = .error e) : shifts depth t = .error e := by
  rw [shifts.eq_def]
  rw [h]

/-- At the end of a text, the comments in front of it are what is left to shift. -/
theorem shifts_of_end {depth : Nat} {t : List Char} (h : shift? depth t = .ok none) :
    shifts depth t = .ok ((comments t).map .node) := by
  rw [shifts.eq_def]
  rw [h]

/-- Comments, what is shifted after them, and what the text goes on with. -/
theorem shifts_of_shift? {depth : Nat} {t r : List Char} {x : Shift}
    (h : shift? depth t = .ok (some (x, r))) :
    shifts depth t =
      (shifts (x.depth depth) r).map fun xs => (comments t).map .node ++ x :: xs := by
  rw [shifts.eq_def]
  rw [h]
  simp only
  cases shifts (x.depth depth) r <;> rfl

/-- All of a text is read just if it has steps, and otherwise both end at the same place. -/
theorem shifts_agrees (depth : Nat) (t : List Char) :
    (∃ e, shifts depth t = .error e ∧ steps depth t = .error e) ∨
      ∃ xs ys, shifts depth t = .ok xs ∧ steps depth t = .ok ys ∧ StandForAll xs ys := by
  induction hlength : t.length using Nat.strong_induction_on generalizing depth t with
  | h n ih =>
    rcases shift?_agrees depth t with ⟨e, hx, hy⟩ | ⟨hx, hy⟩ | ⟨x, y, r, hx, hy, hstands⟩
    · exact .inl ⟨e, shifts_of_error hx, steps_of_error hy⟩
    · exact .inr ⟨_, [], shifts_of_end hx, steps_of_end hy,
        .comments (isComment_of_mem_comments t)⟩
    · rw [shifts_of_shift? hx, steps_of_step? hy, ← hstands.depth_eq]
      rcases ih r.length (hlength ▸ shift?_length hx) (x.depth depth) r rfl with
        ⟨e, hxs, hys⟩ | ⟨xs, ys, hxs, hys, hall⟩
      · rw [hxs, hys]
        exact .inl ⟨e, rfl, rfl⟩
      · rw [hxs, hys]
        exact .inr ⟨_, _, rfl, rfl, .cons (isComment_of_mem_comments t) hstands hall⟩

/-! ## Items of nodes -/

/-- The items of nodes and of further ones. -/
theorem buildItems_append (ns ms : List Node) :
    buildItems (ns ++ ms) = buildItems ns ++ buildItems ms := by
  induction ns with
  | nil => rfl
  | cons n ns ih => rw [List.cons_append, buildItems, buildItems, ih, List.append_assoc]

/-! ## Bodies -/

/-- Splitting off the comments at the end loses no node. -/
theorem splitTrailing_append (ns : List Node) :
    (splitTrailing ns).1 ++ (splitTrailing ns).2 = ns := by
  rw [splitTrailing, ← List.reverse_append, List.takeWhile_append_dropWhile, List.reverse_reverse]

theorem isComment_of_mem_takeWhile {ns : List Node} :
    ∀ n ∈ ns.takeWhile Node.isComment, n.isComment = true :=
  List.all_eq_true.1 List.all_takeWhile

/-- What is split off the end are comments. -/
theorem isComment_of_mem_splitTrailing (ns : List Node) :
    ∀ n ∈ (splitTrailing ns).2, n.isComment = true :=
  fun n hn => isComment_of_mem_takeWhile n (List.mem_reverse.1 hn)

/-- What stands between two braces: comments alone, or a body between comments. -/
theorem enclose_cases (ns : List Node) :
    ((∀ n ∈ ns, n.isComment = true) ∧ enclose ns = ns) ∨
      ∃ leading items trailing front rest,
        enclose ns = leading ++ .mk .body front rest items :: trailing ∧
          ns = leading ++ (items ++ trailing) ∧
          (∀ n ∈ leading, n.isComment = true) ∧ ∀ n ∈ trailing, n.isComment = true := by
  have hns : ns.takeWhile Node.isComment ++ ns.dropWhile Node.isComment = ns :=
    List.takeWhile_append_dropWhile
  have happend := splitTrailing_append (ns.dropWhile Node.isComment)
  have htrailing := isComment_of_mem_splitTrailing (ns.dropWhile Node.isComment)
  rw [enclose]
  rcases hsplit : splitTrailing (ns.dropWhile Node.isComment) with ⟨items, trailing⟩
  rw [hsplit] at happend htrailing
  rw [← happend] at hns
  cases items with
  | nil =>
    left
    refine ⟨?_, rfl⟩
    rw [← hns]
    exact List.forall_mem_append.2 ⟨isComment_of_mem_takeWhile, htrailing⟩
  | cons first items =>
    right
    rcases hlast : (first :: items).getLast? with _ | last
    · cases List.getLast?_eq_none_iff.1 hlast
    · simp only [List.head?_cons, hlast]
      exact ⟨_, _, _, _, _, rfl, hns.symm, isComment_of_mem_takeWhile, htrailing⟩

/-- The items that stand between two braces are those of the body. -/
theorem buildItems_enclosed {leading items trailing : List Node}
    (hleading : ∀ n ∈ leading, n.isComment = true)
    (htrailing : ∀ n ∈ trailing, n.isComment = true) :
    buildItems (leading ++ (items ++ trailing)) = buildItems items := by
  rw [buildItems_append, buildItems_append, buildItems_comments hleading,
    buildItems_comments htrailing, List.nil_append, List.append_nil]

/-- A block has the items that stand between its braces. -/
theorem BlockParts.addAll_enclose {p : BlockParts} (hp : p.body = []) (ns : List Node)
    {brace : Node} (hbrace : brace.kind = .blockEnd) :
    p.addAll (enclose ns ++ [brace]) = { p with body := buildItems ns } := by
  have hend : ∀ q : BlockParts, q.addAll [brace] = q := fun q =>
    add_of_ne (by simp [hbrace]) (by simp [hbrace]) (by simp [hbrace]) q
  rw [addAll_append, hend]
  rcases enclose_cases ns with ⟨hns, henclose⟩ |
    ⟨leading, items, trailing, front, rest, henclose, rfl, hleading, htrailing⟩
  · rw [henclose, addAll_comments hns, buildItems_comments hns, ← hp]
  · rw [henclose, addAll_append, addAll_comments hleading, addAll, addAll_comments htrailing,
      buildItems_enclosed hleading htrailing, add]

/-- There is no body among comments. -/
theorem find?_body_of_comments {cs : List Node} (h : ∀ n ∈ cs, n.isComment = true) :
    cs.find? Node.isBody = none := by
  rw [List.find?_eq_none]
  intro n hn
  simp [Node.isBody, Node.kind_of_isComment (h n hn)]

/-- A file has the items that stand in it. -/
theorem buildFile_enclose (front rest : List Char) (ns : List Node) :
    buildFile (.mk .file front rest (enclose ns)) = buildItems ns := by
  rw [buildFile, Node.children]
  rcases enclose_cases ns with ⟨hns, henclose⟩ |
    ⟨leading, items, trailing, front, rest, henclose, rfl, hleading, htrailing⟩
  · rw [henclose, find?_body_of_comments hns, buildItems_comments hns]
  · rw [henclose, List.find?_append, find?_body_of_comments hleading,
      buildItems_enclosed hleading htrailing]
    rfl

/-! ## Putting nodes together -/

/-- An open block of nodes, with the open block that it is built to. -/
structure OpenedAs (o : OpenBlock) (p : Opened) : Prop where
  header : ∃ ident, p.kind = String.ofList ident ∧
    BlockParts.none.addAll o.header = ⟨ident, p.labels, []⟩
  before : buildItems o.before.reverse = p.before.reverse

/-- Comments are put on the nodes so far. -/
theorem assemble_comments (os : List OpenBlock) (ns cs : List Node) (xs : List Shift) :
    assemble os ns (cs.map .node ++ xs) = assemble os (cs.reverse ++ ns) xs := by
  induction cs generalizing ns with
  | nil => rfl
  | cons n cs ih =>
    rw [List.map_cons, List.cons_append, assemble, ih, List.reverse_cons, List.append_assoc,
      List.singleton_append]

/-- Comments that are put on nodes change none of their items. -/
theorem buildItems_put_comments {cs : List Node} (hcs : ∀ n ∈ cs, n.isComment = true)
    (ns : List Node) : buildItems (cs.reverse ++ ns).reverse = buildItems ns.reverse := by
  rw [List.reverse_append, List.reverse_reverse, buildItems_append, buildItems_comments hcs,
    List.append_nil]

/-- The items of a block that is closed. -/
theorem OpenedAs.item {o : OpenBlock} {p : Opened} (h : OpenedAs o p) {ns : List Node}
    {items : List Item} (hitems : buildItems ns.reverse = items.reverse) {brace : Node}
    (hbrace : brace.kind = .blockEnd) (rest : List Char) :
    Node.item (.mk .block o.front rest (o.header ++ (enclose ns.reverse ++ [brace]))) =
      [.block p.kind p.labels items.reverse] := by
  obtain ⟨⟨ident, hkind, hheader⟩, -⟩ := h
  rw [Node.item, BlockParts.addAll_append, hheader, BlockParts.addAll_enclose rfl _ hbrace, hitems,
    hkind]
  rfl

/-- The items of nodes that are put together are those that the steps build. -/
theorem buildItems_assemble {xs : List Shift} {ys : List Step} (h : StandForAll xs ys)
    {os : List OpenBlock} {ps : List Opened} (hopened : List.Forall₂ OpenedAs os ps)
    {ns : List Node} {items : List Item} (hitems : buildItems ns.reverse = items.reverse) :
    buildItems (assemble os ns xs) = buildFrom ps items ys := by
  induction h generalizing os ps ns items with
  | @comments cs hcs =>
    rw [← List.append_nil (cs.map Shift.node), assemble_comments, assemble, buildFrom]
    rw [buildItems_put_comments hcs, hitems]
  | @cons cs x y xs ys hcs hstands htail ih =>
    rw [assemble_comments]
    rw [← buildItems_put_comments hcs] at hitems
    generalize cs.reverse ++ ns = ns at hitems
    cases hstands with
    | @set n name raw hkind hbuilt =>
      rw [assemble, buildFrom]
      refine ih hopened ?_
      rcases n with ⟨kind, front, rest, children⟩
      obtain rfl : kind = .attr := hkind
      rw [List.reverse_cons, List.reverse_cons, buildItems_append, hitems, buildItems, Node.item,
        hbuilt]
      rfl
    | @enter front header name labels hbuilt =>
      rw [assemble, buildFrom]
      exact ih (.cons ⟨⟨name, rfl, hbuilt⟩, hitems⟩ hopened) rfl
    | @leave brace hbrace =>
      cases hopened with
      | nil => exact ih .nil hitems
      | @cons o p os ps ho hopened =>
        rw [assemble, buildFrom]
        refine ih hopened ?_
        rw [List.reverse_cons, List.reverse_cons, buildItems_append, ho.before, buildItems,
          ho.item hitems hbrace]
        rfl

/-! ## Files -/

/-- A file that is one object has no items. -/
theorem concreteObject_buildFile (t u : List Char) :
    (concreteObject t u).map buildFile = parseObject u := by
  rw [concreteObject, parseObject]
  rcases scanObject u with ⟨s, v⟩ | v
  · rfl
  · simp only
    cases skipTrivia v with
    | cons c w => rfl
    | nil =>
      have hbody : buildFile (.mk .file t []
          (comments t ++ .mk .object (skipTrivia t) v [] :: comments v)) = [] := by
        rw [buildFile, Node.children, List.find?_append,
          find?_body_of_comments (isComment_of_mem_comments t),
          List.find?_cons_of_neg (by simp [Node.isBody, Node.kind]),
          find?_body_of_comments (isComment_of_mem_comments v)]
        rfl
      exact congrArg Except.ok hbody

/-- A file that begins with a brace is one object. -/
theorem parse_of_brace {t v : List Char} (h : skipTrivia (dropMark t) = '{' :: v) :
    parse t = parseObject v := by
  simp only [parse, concrete, h, concreteObject_buildFile]

/-- Any other file has the items that its steps build. -/
theorem parse_of_not_brace {t : List Char} (h : (skipTrivia (dropMark t)).head? ≠ some '{') :
    parse t = (steps 0 (dropMark t)).map build := by
  have hconcrete : concrete t = (shifts 0 (dropMark t)).map fun xs =>
      .mk .file (dropMark t) [] (enclose (assemble [] [] xs)) := by
    simp only [concrete]
    split
    · next heq =>
      rw [heq] at h
      exact absurd rfl h
    · rfl
  rw [parse, hconcrete]
  rcases shifts_agrees 0 (dropMark t) with ⟨e, hxs, hys⟩ | ⟨xs, ys, hxs, hys, hall⟩
  · rw [hxs, hys]
    rfl
  · have hbuild : buildItems (assemble [] [] xs) = build ys := buildItems_assemble hall .nil rfl
    rw [hxs, hys]
    exact congrArg Except.ok ((buildFile_enclose (dropMark t) [] _).trans hbuild)

/-! ## Comments make no difference -/

mutual

/-- A concrete tree without its comments. -/
def Node.strip : Node → Node
  | .mk kind front rest children => .mk kind front rest (stripAll children)

/-- Nodes without the comments among them and inside of them. -/
def stripAll : List Node → List Node
  | [] => []
  | n :: ns => if n.isComment then stripAll ns else n.strip :: stripAll ns

end

@[simp]
theorem Node.kind_strip (n : Node) : n.strip.kind = n.kind := by
  cases n
  rfl

@[simp]
theorem Node.text_strip (n : Node) : n.strip.text = n.text := by
  cases n
  rfl

/-- An attribute is found in nodes without the comments as it is in the nodes. -/
theorem attributeFrom?_stripAll (name value : Option (List Char)) (ns : List Node) :
    attributeFrom? name value (stripAll ns) = attributeFrom? name value ns := by
  induction ns generalizing name value with
  | nil => rfl
  | cons n ns ih =>
    rw [stripAll]
    by_cases hcomment : n.isComment = true
    · rw [if_pos hcomment, attributeFrom?, if_pos (Node.kind_of_isComment hcomment), ih]
    · rw [if_neg hcomment, attributeFrom?, attributeFrom?, Node.kind_strip, Node.text_strip]
      simp only [ih]

mutual

/-- A node without the comments in it builds its item. -/
theorem Node.item_strip (n : Node) : n.strip.item = n.item := by
  rcases n with ⟨kind, front, rest, children⟩
  rw [Node.strip]
  cases kind with
  | attr =>
    rw [Node.item, Node.item, buildAttribute?, buildAttribute?, Node.children, Node.children,
      attributeFrom?_stripAll]
  | block => rw [Node.item, Node.item, BlockParts.addAll_stripAll]
  | _ => rfl

/-- Comments are no items. -/
theorem buildItems_stripAll (ns : List Node) : buildItems (stripAll ns) = buildItems ns := by
  cases ns with
  | nil => rfl
  | cons n ns =>
    rw [stripAll]
    by_cases hcomment : n.isComment = true
    · rw [if_pos hcomment, buildItems, Node.item_comment hcomment, List.nil_append,
        buildItems_stripAll ns]
    · rw [if_neg hcomment, buildItems, buildItems, Node.item_strip n, buildItems_stripAll ns]

/-- A node without the comments in it adds what the node adds to a block. -/
theorem BlockParts.add_strip (p : BlockParts) (n : Node) : p.add n.strip = p.add n := by
  rcases n with ⟨kind, front, rest, children⟩
  rw [Node.strip]
  cases kind with
  | body => rw [BlockParts.add, BlockParts.add, buildItems_stripAll]
  | _ => rfl

/-- Comments add nothing to a block. -/
theorem BlockParts.addAll_stripAll (p : BlockParts) (ns : List Node) :
    p.addAll (stripAll ns) = p.addAll ns := by
  cases ns with
  | nil => rfl
  | cons n ns =>
    rw [stripAll]
    by_cases hcomment : n.isComment = true
    · rw [if_pos hcomment, BlockParts.addAll, BlockParts.add_comment hcomment,
        BlockParts.addAll_stripAll p ns]
    · rw [if_neg hcomment, BlockParts.addAll, BlockParts.addAll, BlockParts.add_strip p n,
        BlockParts.addAll_stripAll _ ns]

end

/-- Comments make no difference to the syntax tree, wherever in the concrete tree they stand. -/
theorem buildFile_strip (root : Node) : buildFile root.strip = buildFile root := by
  have hfind : ∀ ns : List Node,
      (stripAll ns).find? Node.isBody = (ns.find? Node.isBody).map Node.strip := by
    intro ns
    induction ns with
    | nil => rfl
    | cons n ns ih =>
      rw [stripAll]
      by_cases hcomment : n.isComment = true
      · have hkind := Node.kind_of_isComment hcomment
        rw [if_pos hcomment, ih, List.find?_cons_of_neg (by simp [Node.isBody, hkind])]
      · have hbody : n.strip.isBody = n.isBody := by rw [Node.isBody, Node.isBody, Node.kind_strip]
        rw [if_neg hcomment, List.find?_cons, List.find?_cons, hbody, ih]
        cases n.isBody <;> rfl
  rcases root with ⟨kind, front, rest, children⟩
  rw [Node.strip, buildFile, buildFile, Node.children, Node.children, hfind]
  rcases children.find? Node.isBody with _ | ⟨kind, front, rest, children⟩
  · rfl
  · exact buildItems_stripAll children

/-- Trees that differ in nothing but comments have the same syntax tree. -/
theorem buildFile_congr {a b : Node} (h : a.strip = b.strip) : buildFile a = buildFile b := by
  rw [← buildFile_strip a, h, buildFile_strip]

/-- A comment inside of an attribute is one of its nodes, and one after the last item is none of the
body. -/
example :
    let kinds (ns : List Node) : List NodeKind := ns.map Node.kind
    (concrete "a = /* b */ 1 # c\n".toList).toOption.map (fun root =>
      let body := root.children.flatMap Node.children
      (kinds root.children, kinds body, kinds (body.flatMap Node.children))) =
    some ([.body, .comment], [.attr], [.identifier, .comment, .expression]) := by
  decide +kernel

end HclQuery.Grammar
