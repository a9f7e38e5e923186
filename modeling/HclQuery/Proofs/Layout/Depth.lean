import HclQuery.Proofs.Layout.Groups
import HclQuery.Proofs.Layout.Header
import HclQuery.Proofs.Layout.Indentation

/-!
# A body at another depth

How a body is laid out does not depend on its depth: deeper down its lines are the same, and just
move to the right.  Blank lines stay empty, and the lines of a value that begin in a heredoc or in a
block comment stay where they are.  Names must not break their lines.

Which lines these are is what the scanner says.  It takes the marker of a heredoc to end at its
first dash, so it may leave a heredoc too early or not at all; some lines of the heredoc are then
moved, or some after it are not.

Main definitions:

- {lit}`deepen`: a line as it stands some levels deeper.
- {lit}`Deeper`: texts of the same lines, some levels apart.
- {lit}`verbatimLines`: which lines of an item the scanner has in a heredoc or in a block comment.
- {lit}`Heredoc.Marked`: the scanner has the lines of a heredoc, and no others, in the heredoc.

Main results:

- Theorem {lit}`continuation_add`: a line of a value some levels deeper.
- Theorem {lit}`deeper_renderAttribute`, {lit}`deeper_itemText`: an attribute and an item some
  levels deeper.
- Theorem {lit}`Heredoc.marked_iff`: the heredocs whose lines the scanner gets right.
- Theorem {lit}`lines_renderBody_add`: the lines of a body some levels deeper.
-/

namespace HclQuery.Layout

open Text HclQuery.Tree

/-! ## Lines and levels -/

/-- A line as it stands some levels deeper: blank lines and those that are kept do not move. -/
def deepen (levels : Nat) (kept : Bool) (line : List Char) : List Char :=
  if kept || allBlank line then line else indent levels ++ line

/-- Indentations add up. -/
theorem indent_add (depth levels : Nat) :
    indent (depth + levels) = indent levels ++ indent depth := by
  rw [indent, indent, indent, List.replicate_append_replicate]
  congr 1
  omega

/-- A line with something on it is indented further by the levels. -/
theorem deepen_indent (levels depth : Nat) {t : List Char} (h : allBlank t = false) :
    deepen levels false (indent depth ++ t) = indent (depth + levels) ++ t := by
  have hvisible : allBlank (indent depth ++ t) = false := by
    rw [allBlank] at h
    simp [allBlank, h]
  simp [deepen, hvisible, indent_add]

theorem deepen_verbatim (levels : Nat) (line : List Char) : deepen levels true line = line := by
  simp [deepen]

theorem deepen_nil (levels : Nat) (kept : Bool) : deepen levels kept [] = [] := by
  simp [deepen, allBlank]

/-- A text with a visible character is not blank. -/
theorem allBlank_of_mem {c : Char} {t : List Char} (h : c ∈ t) (hc : isBlank c = false) :
    allBlank t = false := by
  rw [allBlank, List.all_eq_false]
  exact ⟨c, h, by simp [hc]⟩

/-- A trimmed text is blank only if it is empty. -/
theorem Trimmed.allBlank_eq {t : List Char} (h : Trimmed t) (hne : t ≠ []) :
    allBlank t = false := by
  rcases List.exists_cons_of_ne_nil hne with ⟨c, u, rfl⟩
  exact allBlank_of_mem (List.mem_cons_self ..) (h.begins c rfl)

/-- A line of a value some levels deeper. -/
theorem continuation_add (depth levels : Nat) (s : Scanner) (l : List Char) :
    continuation (depth + levels) s l = deepen levels s.verbatim (continuation depth s l) := by
  rcases continuation_cases depth s l with ⟨h, hline⟩ | ⟨h, hl, hline⟩ | ⟨h, hl, hline⟩
  · rw [hline, continuation_of_verbatim h, h, deepen_verbatim]
  · rw [hline, continuation_of_blank h hl, deepen_nil]
  · rw [hline, continuation_of_code h hl, h,
      deepen_indent levels _ (Trimmed.allBlank_eq (trimmed_trim l) hl), Nat.add_right_comm]

/-- Lines of a value some levels deeper. -/
theorem continuations_add (depth levels : Nat) (s : Scanner) (ls : List (List Char)) :
    continuations (depth + levels) s ls =
      List.zipWith (deepen levels) ((s.inFront ls).map Scanner.verbatim)
        (continuations depth s ls) := by
  induction ls generalizing s with
  | nil => rfl
  | cons l ls ih => simp [continuations, Scanner.inFront, continuation_add, ih]

/-! ## Texts some levels apart -/

/-- The text of lines, each of which ends in a newline. -/
def endLines (ls : List (List Char)) : List Char :=
  ls.flatMap (· ++ ['\n'])

theorem endLines_cons (l : List Char) (ls : List (List Char)) :
    endLines (l :: ls) = l ++ '\n' :: endLines ls := by
  simp [endLines]

theorem endLines_append (ls ms : List (List Char)) :
    endLines (ls ++ ms) = endLines ls ++ endLines ms := by
  simp [endLines]

/-- A text that ends each of its lines has an empty one after them. -/
theorem lines_endLines {ls : List (List Char)} (h : ∀ l ∈ ls, '\n' ∉ l) :
    lines (endLines ls) = ls ++ [[]] := by
  induction ls with
  | nil => rfl
  | cons l ls ih =>
    rw [endLines_cons, lines_append_newline (h l (List.mem_cons_self ..)),
      ih fun m hm => h m (List.mem_cons_of_mem _ hm), List.cons_append]

/-- A text in front of lines belongs to the first one. -/
theorem append_unlines_newline (t l : List Char) (ls : List (List Char)) :
    t ++ unlines (l :: ls) ++ ['\n'] = endLines ((t ++ l) :: ls) := by
  induction ls generalizing t l with
  | nil => simp [unlines, endLines]
  | cons m ls ih =>
    have hrest := ih [] m
    rw [unlines_cons_cons, endLines_cons]
    simpa using hrest

/-- A line has no newline in it at any depth. -/
theorem not_mem_zipWith_deepen (levels : Nat) (ks : List Bool) {ls : List (List Char)}
    (h : ∀ l ∈ ls, '\n' ∉ l) : ∀ l ∈ List.zipWith (deepen levels) ks ls, '\n' ∉ l := by
  rw [← List.map_uncurry_zip_eq_zipWith]
  intro l hl
  rcases List.mem_map.1 hl with ⟨⟨k, m⟩, hmem, rfl⟩
  have hm : '\n' ∉ m := h m (List.of_mem_zip hmem).2
  rw [Function.uncurry_apply_pair, deepen]
  split
  · exact hm
  · simp [indent, hm]

/-- Two texts of the same lines, of which the second stands some levels deeper.  Of each line it is
given whether it is kept. -/
def Deeper (levels : Nat) (kept : List Bool) (t u : List Char) : Prop :=
  ∃ ls : List (List Char), ls.length = kept.length ∧ (∀ l ∈ ls, '\n' ∉ l) ∧
    t = endLines ls ∧ u = endLines (List.zipWith (deepen levels) kept ls)

namespace Deeper

variable {levels : Nat}

theorem nil : Deeper levels [] [] [] :=
  ⟨[], rfl, by simp, rfl, rfl⟩

/-- Texts some levels deeper may follow each other. -/
theorem append {ks ks' : List Bool} {t t' u u' : List Char} (h : Deeper levels ks t u)
    (h' : Deeper levels ks' t' u') : Deeper levels (ks ++ ks') (t ++ t') (u ++ u') := by
  rcases h with ⟨ls, hlength, hlines, rfl, rfl⟩
  rcases h' with ⟨ls', hlength', hlines', rfl, rfl⟩
  refine ⟨ls ++ ls', by simp [hlength, hlength'], ?_, (endLines_append ls ls').symm, ?_⟩
  · intro l hl
    rcases List.mem_append.1 hl with hl | hl
    · exact hlines l hl
    · exact hlines' l hl
  · rw [List.zipWith_append hlength.symm, endLines_append]

/-- Texts one after the other. -/
theorem flatMap {α : Type} {ks : α → List Bool} {t u : α → List Char} {xs : List α}
    (h : ∀ x ∈ xs, Deeper levels (ks x) (t x) (u x)) :
    Deeper levels (xs.flatMap ks) (xs.flatMap t) (xs.flatMap u) := by
  induction xs with
  | nil => exact nil
  | cons x xs ih =>
    simp only [List.flatMap_cons]
    exact (h x (List.mem_cons_self ..)).append (ih fun y hy => h y (List.mem_cons_of_mem _ hy))

/-- One line that is moved. -/
theorem line {depth : Nat} {t : List Char} (hnewline : '\n' ∉ t) (hvisible : allBlank t = false) :
    Deeper levels [false] (indent depth ++ t ++ ['\n'])
      (indent (depth + levels) ++ t ++ ['\n']) := by
  refine ⟨[indent depth ++ t], rfl, ?_, by simp [endLines], ?_⟩
  · simp [indent, hnewline]
  · simp [endLines, deepen_indent levels depth hvisible]

/-- The lines of the deeper text. -/
theorem lines_eq {ks : List Bool} {t u : List Char} (h : Deeper levels ks t u) :
    (lines t).length = ks.length + 1 ∧
      lines u = List.zipWith (deepen levels) (ks ++ [false]) (lines t) := by
  rcases h with ⟨ls, hlength, hlines, rfl, rfl⟩
  rw [lines_endLines hlines, lines_endLines (not_mem_zipWith_deepen levels ks hlines),
    List.zipWith_append hlength.symm]
  simp [hlength, deepen_nil]

end Deeper

/-! ## Items -/

mutual

/-- Of each line of an item, whether the scanner has it in a heredoc or in a block comment. -/
def verbatimLines : Item → List Bool
  | .attr a => false :: (lineStates a.raw.toList).map Scanner.verbatim
  | .block _ _ body => false :: (verbatimLinesList body ++ [false])
  | .blank => [false]

/-- Of each line of items, whether the scanner has it in a heredoc or in a block comment. -/
def verbatimLinesList : List Item → List Bool
  | [] => []
  | i :: is => verbatimLines i ++ verbatimLinesList is

end

mutual

/-- The attribute names and the types of blocks in an item, all the way down. -/
def itemNames : Item → List String
  | .attr a => [a.name]
  | .block kind _ body => kind :: itemNamesList body
  | .blank => []

/-- The attribute names and the types of blocks among items, all the way down. -/
def itemNamesList : List Item → List String
  | [] => []
  | i :: is => itemNames i ++ itemNamesList is

end

/-- The lines of items are those of each item. -/
theorem verbatimLinesList_eq_flatMap (is : List Item) :
    verbatimLinesList is = is.flatMap verbatimLines := by
  induction is with
  | nil => rfl
  | cons i is ih => rw [verbatimLinesList, ih, List.flatMap_cons]

/-- The lines of a body are those of its groups. -/
theorem verbatimLinesList_eq_groups (b : Body) :
    verbatimLinesList b = (groups b).flatMap fun g => g.flatMap verbatimLines := by
  calc verbatimLinesList b = (groups b).flatten.flatMap verbatimLines := by
        rw [flatten_groups, verbatimLinesList_eq_flatMap]
    _ = (groups b).flatMap fun g => g.flatMap verbatimLines := by
        simp only [List.flatten_eq_flatMap, List.flatMap_assoc, id]

/-- The first line of an attribute holds its equals sign, so it is not blank; the lines of its value
follow. -/
theorem deeper_renderAttribute (depth levels width : Nat) {a : Attribute}
    (h : '\n' ∉ a.name.toList) :
    Deeper levels (verbatimLines (.attr a)) (renderAttribute depth width a)
      (renderAttribute (depth + levels) width a) := by
  rcases exists_lines (trim a.raw.toList) with ⟨first, rest, hlines⟩
  have hnewline : ∀ l ∈ first :: rest, '\n' ∉ l := fun l hl => not_mem_of_mem_lines (hlines ▸ hl)
  have hcontinued := not_mem_continuations depth (Scanner.initial.scan first)
    fun l hl => hnewline l (List.mem_cons_of_mem first hl)
  -- The first line of the value stands behind the equals sign, on the line of the name.
  generalize hfront : a.name.toList ++ List.replicate (width - a.name.length) ' ' ++
    [' ', '=', ' '] ++ trimEnd first = front
  have hvisible : allBlank front = false := by
    apply allBlank_of_mem (c := '=') _ rfl
    simp [← hfront]
  have htext : ∀ d, renderAttribute d width a = endLines ((indent d ++ front) ::
      continuations d (Scanner.initial.scan first) rest) := by
    intro d
    rw [← hfront, renderAttribute, reindent, hlines, reindentLines, append_unlines_newline]
    simp only [List.append_assoc]
  have hstates : lineStates a.raw.toList = (Scanner.initial.scan first).inFront rest := by
    rw [lineStates, hlines]
  refine ⟨_, ?_, ?_, htext depth, ?_⟩
  · simp [verbatimLines, hstates, length_continuations, length_inFront]
  · intro l hl
    rcases List.mem_cons.1 hl with rfl | hl
    · have hfirst : '\n' ∉ trimEnd first := fun hmem =>
        hnewline first (List.mem_cons_self ..) (mem_of_mem_trimEnd hmem)
      simp [← hfront, indent, h, hfirst]
    · exact hcontinued l hl
  · rw [htext, verbatimLines, hstates, List.zipWith_cons_cons, deepen_indent levels depth hvisible,
      continuations_add]

/-- The line that opens a block some levels deeper. -/
theorem deeper_header (depth levels : Nat) {kind : String} (labels : List String)
    (h : '\n' ∉ kind.toList) :
    Deeper levels [false] (header depth kind labels) (header (depth + levels) kind labels) := by
  generalize htext : kind.toList ++ labels.flatMap (fun l => ' ' :: (Label.quote l).toList) ++
    [' ', '{'] = text
  have hheader : ∀ d, header d kind labels = indent d ++ text ++ ['\n'] := by
    intro d
    simp [header, ← htext]
  have hnewline : '\n' ∉ text := by simp [← htext, h, Label.newline_not_mem_quote]
  have hvisible : allBlank text = false := by
    apply allBlank_of_mem (c := '{') _ rfl
    simp [← htext]
  rw [hheader, hheader]
  exact .line hnewline hvisible

/-- The line that closes a block some levels deeper. -/
theorem deeper_footer (depth levels : Nat) :
    Deeper levels [false] (footer depth) (footer (depth + levels)) := by
  have hfooter : ∀ d, footer d = indent d ++ ['}'] ++ ['\n'] := by simp [footer]
  rw [hfooter, hfooter]
  exact .line (by decide) rfl

/-- A body is as much deeper as its items are. -/
theorem deeper_renderBody {depth levels : Nat} {b : Body}
    (h : ∀ i ∈ b, ∀ width, Deeper levels (verbatimLines i) (itemText depth width i)
      (itemText (depth + levels) width i)) :
    Deeper levels (verbatimLinesList b) (renderBody depth b) (renderBody (depth + levels) b) := by
  rw [renderBody_eq_groups, renderBody_eq_groups, verbatimLinesList_eq_groups]
  refine .flatMap fun g hg => .flatMap fun i hi => h i ?_ (groupWidth g)
  rw [← flatten_groups b]
  exact List.mem_flatten_of_mem hg hi

mutual

/-- An item some levels deeper. -/
theorem deeper_itemText (depth levels width : Nat) : ∀ i : Item,
    (∀ n ∈ itemNames i, '\n' ∉ n.toList) →
      Deeper levels (verbatimLines i) (itemText depth width i) (itemText (depth + levels) width i)
  | .attr a, h => deeper_renderAttribute depth levels width (h a.name (by simp [itemNames]))
  | .block kind labels body, h => by
    have hkind : '\n' ∉ kind.toList := h kind (by simp [itemNames])
    have hbody := deeper_renderBody (deeper_of_mem (depth + 1) levels body fun n hn =>
      h n (by simp [itemNames, hn]))
    rw [Nat.add_right_comm] at hbody
    have hinner := (deeper_header depth levels labels hkind).append
      (hbody.append (deeper_footer depth levels))
    simpa [itemText, verbatimLines] using hinner
  | .blank, _ => ⟨[[]], rfl, by simp, rfl, by simp [endLines, deepen_nil, verbatimLines, itemText]⟩

/-- Each of some items some levels deeper. -/
theorem deeper_of_mem (depth levels : Nat) : ∀ is : List Item,
    (∀ n ∈ itemNamesList is, '\n' ∉ n.toList) → ∀ i ∈ is, ∀ width,
      Deeper levels (verbatimLines i) (itemText depth width i) (itemText (depth + levels) width i)
  | [], _ => by simp
  | i :: is, h => by
    intro j hj width
    rcases List.mem_cons.1 hj with hji | hj
    · rw [hji]
      exact deeper_itemText depth levels width i fun n hn => h n (by simp [itemNamesList, hn])
    · exact deeper_of_mem depth levels is (fun n hn => h n (by simp [itemNamesList, hn])) j hj width

end

/-! ## Heredocs -/

/-- The scanner in front of later lines is the one after those before them. -/
theorem inFront_append (s : Scanner) (ls ms : List (List Char)) :
    s.inFront (ls ++ ms) = s.inFront ls ++ (ls.foldl Scanner.scan s).inFront ms := by
  induction ls generalizing s with
  | nil => rfl
  | cons l ls ih => simp [Scanner.inFront, ih, after_eq_scan]

/-- As long as no line is the marker, all of them begin in the heredoc. -/
theorem inFront_heredoc {m : List Char} {ls : List (List Char)} (h : ∀ l ∈ ls, trim l ≠ m)
    (σ : List Frame) :
    (Scanner.mk σ (.heredoc m)).inFront ls = List.replicate ls.length ⟨σ, .heredoc m⟩ := by
  induction ls with
  | nil => rfl
  | cons l ls ih =>
    have hl : (Scanner.mk σ (.heredoc m)).scan l = ⟨σ, .heredoc m⟩ :=
      if_neg (h l (List.mem_cons_self ..))
    rw [Scanner.inFront, after_eq_scan, hl, ih fun l' hl' => h l' (List.mem_cons_of_mem l hl')]
    rfl

namespace Heredoc

/-- The lines of a heredoc are taken for such, and those after it for the code that they are. -/
def Marked (d : Heredoc) (n : Nat) (after : List (List Char)) : Prop :=
  ((d.inside n).inFront (d.rest ++ after)).map Scanner.verbatim =
    List.replicate d.rest.length true ++
      ((Scanner.inBrackets n []).inFront after).map Scanner.verbatim

/-- A heredoc that is left at a line of its body is followed by lines that are taken for code. -/
theorem not_marked_of_front {d : Heredoc} (h : ∃ l ∈ d.body, trim l = d.front) (n : Nat)
    (after : List (List Char)) : ¬d.Marked n after := by
  rcases exists_first h with ⟨a, l, b, hbody, ha, hl⟩
  have hrest : d.rest = a ++ (l :: (b ++ [d.closing])) := by
    rw [rest, hbody, List.append_assoc, List.cons_append]
  have hlength : a.length + 1 < d.rest.length := by simp [hrest]
  intro hmarked
  have hcode : (((d.inside n).inFront (d.rest ++ after)).map Scanner.verbatim)[a.length + 1]? =
      some false := by
    rw [hrest, List.append_assoc, inFront_append, inside, inFront_heredoc ha,
      Scanner.foldl_scan_body ha, List.cons_append, Scanner.inFront, after_eq_scan,
      Scanner.scan_closing hl]
    cases b <;> simp [Scanner.inFront, Scanner.verbatim]
  rw [hmarked, List.getElem?_append_left (by simpa using hlength)] at hcode
  simp [hlength] at hcode

/-- A heredoc that is not left early depends on what is taken to follow it. -/
theorem marked_iff_after {d : Heredoc} (h : ∀ l ∈ d.body, trim l ≠ d.front) (n : Nat)
    (after : List (List Char)) :
    d.Marked n after ↔
      ((d.rest.foldl Scanner.scan (d.inside n)).inFront after).map Scanner.verbatim =
        ((Scanner.inBrackets n []).inFront after).map Scanner.verbatim := by
  have hrest : (d.inside n).inFront d.rest = List.replicate d.rest.length (d.inside n) := by
    rw [rest, inFront_append, inside, inFront_heredoc h, Scanner.foldl_scan_body h,
      List.length_append, List.length_singleton, List.replicate_succ']
    rfl
  rw [Marked, inFront_append, hrest, List.map_append, List.map_replicate]
  exact List.append_right_inj _

/-- The lines of a heredoc are taken for such, and those after it for code, exactly if its marker
has no dash, or if it is last in the value and no line of its body is what its marker begins
with. -/
theorem marked_iff (d : Heredoc) (n : Nat) (after : List (List Char)) :
    d.Marked n after ↔ '-' ∉ d.marker ∨ after = [] ∧ ∀ l ∈ d.body, trim l ≠ d.front := by
  by_cases hbody : ∃ l ∈ d.body, trim l = d.front
  · rcases hbody with ⟨l, hl, hfront⟩
    -- No line of the body is the marker itself, so the marker goes on after its front.
    have hdash : '-' ∈ d.marker := by
      by_contra hd
      exact d.body_open l hl (hfront.trans (d.front_eq_iff.2 hd))
    simp only [not_marked_of_front ⟨l, hl, hfront⟩ n after, hdash, not_true, false_or, false_iff]
    exact fun hopen => hopen.2 l hl hfront
  · have hopen : ∀ l ∈ d.body, trim l ≠ d.front := fun l hl heq => hbody ⟨l, hl, heq⟩
    rw [marked_iff_after hopen]
    by_cases hdash : '-' ∈ d.marker
    · rw [inside, Scanner.foldl_scan_body (rest_open hdash hopen)]
      cases after with
      | nil => simpa [Scanner.inFront] using .inr hopen
      | cons l after => simp [Scanner.inFront, Scanner.verbatim, Scanner.inBrackets, hdash]
    · have hclosed : d.rest.foldl Scanner.scan (d.inside n) = Scanner.inBrackets n [] := by
        rw [rest, List.foldl_append, inside, Scanner.foldl_scan_body hopen]
        exact Scanner.scan_closing (d.closes.trans (d.front_eq_iff.2 hdash).symm) _
      simp [hclosed, hdash]

end Heredoc

/-- From the first line of a heredoc on, what the scanner takes the lines of its attribute for. -/
theorem drop_verbatimLines {a : Attribute} {p : List Char} {d : Heredoc}
    {after : List (List Char)} {n : Nat}
    (hraw : trim a.raw.toList = p ++ unlines (d.opener :: (d.rest ++ after)))
    (hafter : ∀ l ∈ after, '\n' ∉ l) (hcode : Code 0 (p ++ d.opener) n d.opener) :
    (verbatimLines (.attr a)).drop (lines (p ++ d.opener)).length =
      ((d.inside n).inFront (d.rest ++ after)).map Scanner.verbatim := by
  have hfront := Scanner.through_front hcode
  rcases exists_lines (p ++ d.opener) with ⟨l, ls, hl⟩
  rw [Scanner.through_of_lines hl, ← Scanner.Outside.scan_eq (.of_code rfl)] at hfront
  rw [verbatimLines, lineStates, lines_trim_heredoc hraw hafter, hl, List.cons_append]
  simp only [inFront_append, hfront, List.map_append, List.length_cons, List.drop_succ_cons]
  apply List.drop_left'
  simp [length_inFront]

/-- The lines of a body some levels deeper.  Which lines stay where they are is what the scanner
says; for those of a heredoc and after it that is right just under a condition on its marker. -/
theorem lines_renderBody_add (depth levels : Nat) {b : Body}
    (h : ∀ n ∈ itemNamesList b, '\n' ∉ n.toList) :
    (lines (renderBody depth b)).length = (verbatimLinesList b).length + 1 ∧
      lines (renderBody (depth + levels) b) =
        List.zipWith (deepen levels) (verbatimLinesList b ++ [false])
          (lines (renderBody depth b)) ∧
      ∀ {a : Attribute} {p : List Char} {d : Heredoc} {after : List (List Char)} {n : Nat},
        trim a.raw.toList = p ++ unlines (d.opener :: (d.rest ++ after)) →
        (∀ l ∈ after, '\n' ∉ l) → Code 0 (p ++ d.opener) n d.opener →
        ((verbatimLines (.attr a)).drop (lines (p ++ d.opener)).length =
            List.replicate d.rest.length true ++
              ((Scanner.inBrackets n []).inFront after).map Scanner.verbatim ↔
          '-' ∉ d.marker ∨ after = [] ∧ ∀ l ∈ d.body, trim l ≠ d.front) := by
  have hdeeper := deeper_renderBody (deeper_of_mem depth levels b h)
  refine ⟨hdeeper.lines_eq.1, hdeeper.lines_eq.2, ?_⟩
  intro a p d after n hraw hafter hcode
  rw [drop_verbatimLines hraw hafter hcode]
  exact d.marked_iff n after

/-- A block with a heredoc, and with a list over several lines. -/
def heredocBody : Body :=
  [.block "b" ["l"] [.attr ⟨"x", "<<EOF\n    x\nEOF"⟩, .attr ⟨"y", "[\n1\n]"⟩]]

/-- Two levels deeper, the lines of the heredoc stay where they are. -/
theorem lines_renderBody_add_heredocBody :
    (∀ n ∈ itemNamesList heredocBody, '\n' ∉ n.toList) ∧
      verbatimLinesList heredocBody =
        [false, false, true, true, false, false, false, false] ∧
      lines (renderBody 2 heredocBody) =
        List.zipWith (deepen 2) (verbatimLinesList heredocBody ++ [false])
          (lines (renderBody 0 heredocBody)) ∧
      (verbatimLines (.attr ⟨"x", "<<EOF\n    x\nEOF"⟩)).drop 1 = [true, true] := by
  have hnames : ∀ n ∈ itemNamesList heredocBody, '\n' ∉ n.toList := by decide
  rcases lines_renderBody_add 0 2 hnames with ⟨-, hlines, hheredoc⟩
  have hmarked := @hheredoc ⟨"x", "<<EOF\n    x\nEOF"⟩ [] movedLine [] 0 (by decide) (by simp) .done
  exact ⟨hnames, by decide, hlines, hmarked.2 (.inl (by decide))⟩

/-- An attribute whose value is a heredoc with a dash in its marker. -/
def dashedAttribute : Attribute :=
  ⟨"x", "<<A-B\nA\n      text\nA-B"⟩

/-- The second line of the body of the heredoc is moved. -/
theorem not_lines_renderBody_add :
    Grammar.IsExpression dashedAttribute.raw.toList ∧
      lines (renderBody 0 [.attr dashedAttribute]) =
        ["x = <<A-B", "A", "text", "A-B", ""].map String.toList ∧
      lines (renderBody 1 [.attr dashedAttribute]) =
        ["  x = <<A-B", "A", "  text", "  A-B", ""].map String.toList ∧
      ¬∀ (a : Attribute) (p : List Char) (d : Heredoc) (after : List (List Char)) (n : Nat),
        '\n' ∉ a.name.toList → trim a.raw.toList = p ++ unlines (d.opener :: (d.rest ++ after)) →
        (∀ l ∈ after, '\n' ∉ l) → Code 0 (p ++ d.opener) n d.opener →
        ∀ depth levels i, i < d.rest.length →
          (lines (renderBody (depth + levels) [.attr a]))[(lines (p ++ d.opener)).length + i]? =
            (lines (renderBody depth [.attr a]))[(lines (p ++ d.opener)).length + i]? := by
  have hexpression : Grammar.IsExpression dashedAttribute.raw.toList :=
    ⟨Grammar.skipTrivia_cons rfl (by decide) (by decide) _, ok_of_toOption (by decide +kernel)⟩
  refine ⟨hexpression, by decide +kernel, by decide +kernel, ?_⟩
  intro h
  have hkept := h dashedAttribute [] dashedMarker [] 0 (by decide) (by decide) nofun .done 0 1 1
    (by decide)
  revert hkept
  decide +kernel

end HclQuery.Layout
