import HclQuery.Toml.Document

/-!
# The keys of tables

No table has two entries under one name, however it comes about: from pairs, from headers, from
dotted keys or in braces.  So the value under a name does not depend on the order of the entries.

Main definitions:

- {lit}`Value.Distinct`: values in which no table has a name twice.

Main results:

- Theorem {lit}`Value.keeps_alterAt`: changing the table at the end of a path.
- Theorem {lit}`step?_distinct`: one statement of a document.
- Theorem {lit}`value?_distinct`: the values that are read.
- Theorem {lit}`parse?_distinct`: the table of a text.
-/

namespace HclQuery.Toml

/-- The names of the keys of entries, in order. -/
def Entries.names (es : Entries) : List String :=
  es.map fun e => e.1.name

@[simp]
theorem Entries.names_nil : Entries.names [] = [] := rfl

@[simp]
theorem Entries.names_cons (e : Key × Value) (es : Entries) :
    Entries.names (e :: es) = e.1.name :: Entries.names es := rfl

/-- The names of entries put together are those of the first and then those of the second. -/
@[simp]
theorem Entries.names_append (es es' : Entries) :
    Entries.names (es ++ es') = Entries.names es ++ Entries.names es' :=
  List.map_append

/-- No table inside a value has two entries under one name. -/
inductive Value.Distinct : Value → Prop where
  | scalar (span : Span) (value : Scalar) : Distinct (.scalar span value)
  | array (span : Span) {vs : List Value} (h : ∀ v ∈ vs, Distinct v) : Distinct (.array span vs)
  | table (origin : Origin) (span : Option Span) {es : Entries} (names : (Entries.names es).Nodup)
    (h : ∀ e ∈ es, Distinct e.2) : Distinct (.table origin span es)
  | tables {vs : List Value} (h : ∀ v ∈ vs, Distinct v) : Distinct (.tables vs)

namespace Value

/-- A table has distinct names when its own are distinct and those of each value are. -/
theorem distinct_table_iff {origin : Origin} {span : Option Span} {es : Entries} :
    (table origin span es).Distinct ↔ (Entries.names es).Nodup ∧ ∀ e ∈ es, e.2.Distinct := by
  constructor
  · intro h
    cases h with
    | table _ _ names h => exact ⟨names, h⟩
  · rintro ⟨names, h⟩
    exact .table origin span names h

/-- A list of tables has distinct names when each of them has. -/
theorem distinct_tables_iff {vs : List Value} :
    (tables vs).Distinct ↔ ∀ v ∈ vs, v.Distinct := by
  constructor
  · intro h
    cases h with
    | tables h => exact h
  · exact .tables

theorem distinct_newTable (origin : Origin) (span : Option Span) :
    (table origin span []).Distinct :=
  .table origin span List.nodup_nil fun _ h => nomatch h

/-! ## What stands under a name -/

/-- What stands under a name is found when the name is there. -/
theorem find?_isSome_iff (name : String) (es : Entries) :
    (find? name es).isSome = true ↔ name ∈ Entries.names es := by
  simp [find?, Entries.names]

theorem find?_eq_none_iff (name : String) (es : Entries) :
    find? name es = none ↔ name ∉ Entries.names es := by
  rw [← find?_isSome_iff, Option.not_isSome_iff_eq_none]

/-- What is found in entries with distinct names has distinct names. -/
theorem distinct_of_find? {name : String} {es : Entries} (hes : ∀ e ∈ es, e.2.Distinct)
    {v : Value} (h : find? name es = some v) : v.Distinct := by
  obtain ⟨e, he, rfl⟩ := Option.map_eq_some_iff.1 h
  exact hes e (List.mem_of_find?_eq_some he)

/-! ## Changing tables -/

/-- A change of a value that never puts a name twice into a table. -/
def Keeps (f : Value → Option Value) : Prop :=
  ∀ v w, v.Distinct → f v = some w → w.Distinct

/-- The same of a change of what stands under a name. -/
def KeepsEntry (f : Option Value → Option Value) : Prop :=
  ∀ v w, (∀ u, v = some u → u.Distinct) → f v = some w → w.Distinct

/-- An entry under a new name is added to a table. -/
theorem distinct_concat {origin : Origin} {span : Option Span} {es : Entries} {key : Key}
    {v : Value} (h : (table origin span es).Distinct) (hkey : key.name ∉ Entries.names es)
    (hv : v.Distinct) : (table origin span (es ++ [(key, v)])).Distinct := by
  rw [distinct_table_iff] at h ⊢
  constructor
  · rw [Entries.names_append, Entries.names_cons, Entries.names_nil]
    refine List.nodup_append.2 ⟨h.1, by simp, ?_⟩
    rintro a ha b hb rfl
    exact hkey (List.mem_singleton.1 hb ▸ ha)
  · intro e he
    rcases List.mem_append.1 he with he | he
    · exact h.2 e he
    · rw [List.mem_singleton.1 he]
      exact hv

/-- An entry is changed where it stands, or a new one is added at the end. -/
theorem alterEntry_cases {key : Key} {f : Option Value → Option Value} {es es' : Entries}
    (h : alterEntry key f es = some es') :
    (key.name ∉ Entries.names es ∧ ∃ w, f none = some w ∧ es' = es ++ [(key, w)]) ∨
      ∃ l k v w r, es = l ++ (k, v) :: r ∧ f (some v) = some w ∧ es' = l ++ (k, w) :: r := by
  induction es generalizing es' with
  | nil =>
    obtain ⟨w, hw, rfl⟩ := Option.map_eq_some_iff.1 h
    exact .inl ⟨List.not_mem_nil, w, hw, rfl⟩
  | cons e es ih =>
    obtain ⟨k, v⟩ := e
    rw [alterEntry] at h
    by_cases hk : k.name = key.name
    · rw [if_pos hk] at h
      obtain ⟨w, hw, rfl⟩ := Option.map_eq_some_iff.1 h
      exact .inr ⟨[], k, v, w, es, rfl, hw, rfl⟩
    · rw [if_neg hk] at h
      obtain ⟨es'', hes, rfl⟩ := Option.map_eq_some_iff.1 h
      obtain ⟨hnot, w, hw, rfl⟩ | ⟨l, k', v', w, r, rfl, hw, rfl⟩ := ih hes
      · refine .inl ⟨?_, w, hw, rfl⟩
        rw [Entries.names_cons, List.mem_cons, not_or]
        exact ⟨Ne.symm hk, hnot⟩
      · exact .inr ⟨(k, v) :: l, k', v', w, r, rfl, hw, rfl⟩

/-- Changing what stands under a key. -/
theorem distinct_alterEntry {key : Key} {f : Option Value → Option Value} (hf : KeepsEntry f)
    {origin : Origin} {span : Option Span} {es es' : Entries}
    (hes : (table origin span es).Distinct) (h : alterEntry key f es = some es') :
    (table origin span es').Distinct := by
  obtain ⟨hnot, w, hw, rfl⟩ | ⟨l, k, v, w, r, rfl, hw, rfl⟩ := alterEntry_cases h
  · exact distinct_concat hes hnot (hf none w (fun u hu => nomatch hu) hw)
  · rw [distinct_table_iff] at hes ⊢
    obtain ⟨hnames, hvalues⟩ := hes
    simp only [List.forall_mem_append, List.forall_mem_cons] at hvalues ⊢
    have hdistinct : w.Distinct := by
      refine hf (some v) w (fun u hu => ?_) hw
      cases hu
      exact hvalues.2.1
    refine ⟨?_, hvalues.1, hdistinct, hvalues.2.2⟩
    simpa using hnames

/-- Changing the last table of a list keeps names distinct. -/
theorem distinct_alterLast {f : Value → Option Value} (hf : Keeps f) {vs vs' : List Value}
    (hvs : ∀ v ∈ vs, v.Distinct) (h : alterLast f vs = some vs') : ∀ v ∈ vs', v.Distinct := by
  fun_induction alterLast f vs generalizing vs' with
  | case1 => cases h
  | case2 v =>
    obtain ⟨w, hw, rfl⟩ := Option.map_eq_some_iff.1 h
    simpa using hf v w (hvs v (List.mem_cons_self ..)) hw
  | case3 v vs hne ih =>
    obtain ⟨ws, hws, rfl⟩ := Option.map_eq_some_iff.1 h
    rw [List.forall_mem_cons] at hvs ⊢
    exact ⟨hvs.1, ih hvs.2 hws⟩

/-- Changing a table that a key leads through keeps names distinct. -/
theorem keepsEntry_through (dotted : Bool) {f : Value → Option Value} (hf : Keeps f) :
    KeepsEntry (through dotted f) := by
  intro v w hv h
  cases v with
  | none => exact hf _ w (distinct_newTable ..) h
  | some v =>
    have hdistinct := hv v rfl
    cases v with
    | scalar span value => cases h
    | array span vs => cases h
    | table origin span es =>
      simp only [through] at h
      split at h
      · exact hf _ w hdistinct h
      · cases h
    | tables vs =>
      simp only [through] at h
      split at h
      · cases h
      · obtain ⟨ws, hws, rfl⟩ := Option.map_eq_some_iff.1 h
        exact .tables (distinct_alterLast hf (distinct_tables_iff.1 hdistinct) hws)

/-- Changing the table at the end of a path. -/
theorem keeps_alterAt (dotted : Bool) {f : Value → Option Value} (hf : Keeps f) (path : List Key) :
    Keeps (alterAt dotted f path) := by
  induction path with
  | nil => exact hf
  | cons k path ih =>
    intro v w hv h
    cases v with
    | scalar span value => cases h
    | array span vs => cases h
    | tables vs => cases h
    | table origin span es =>
      obtain ⟨es', hes', rfl⟩ := Option.map_eq_some_iff.1 h
      exact distinct_alterEntry (keepsEntry_through dotted ih) hv hes'

/-- Adding a value under a key keeps names distinct. -/
theorem keeps_add (dotted : Bool) (key : Key) {value : Value} (hvalue : value.Distinct) :
    Keeps (add dotted key value) := by
  intro v w hv h
  cases v with
  | scalar span value => cases h
  | array span vs => cases h
  | tables vs => cases h
  | table origin span es =>
    simp only [add] at h
    split at h
    · cases h
    · split at h
      · cases h
      · next hfind =>
        cases h
        exact distinct_concat hv (fun hmem => hfind ((find?_isSome_iff ..).2 hmem)) hvalue

/-- Inserting a value under a path of keys keeps names distinct. -/
theorem keeps_insert (path : List Key) (key : Key) {value : Value} (hvalue : value.Distinct) :
    Keeps fun table => table.insert path key value :=
  keeps_alterAt true (keeps_add _ key hvalue) path

/-- A table without one of its entries. -/
theorem distinct_erase {origin : Origin} {span : Option Span} {es : Entries} (name : String)
    (h : (table origin span es).Distinct) : (table origin span (erase name es)).Distinct := by
  rw [distinct_table_iff] at h ⊢
  have hsub : (erase name es).Sublist es := List.filter_sublist
  exact ⟨h.1.sublist (hsub.map _), fun e he => h.2 e (hsub.subset he)⟩

/-- A name that has been erased is not there. -/
theorem not_mem_names_erase (name : String) (es : Entries) :
    name ∉ Entries.names (erase name es) := by
  simp [Entries.names, erase]

/-- Opening a table keeps names distinct. -/
theorem keeps_openTable (key : Key) (place : Span) : Keeps (openTable key place) := by
  intro v w hv h
  cases v with
  | scalar span value => cases h
  | array span vs => cases h
  | tables vs => cases h
  | table origin span es =>
    simp only [openTable] at h
    split at h
    · next hfind =>
      cases h
      exact distinct_concat hv ((find?_eq_none_iff ..).1 hfind) (distinct_newTable ..)
    · next inner hfind =>
      cases h
      have hinner := distinct_table_iff.1 (distinct_of_find? (distinct_table_iff.1 hv).2 hfind)
      exact distinct_concat (distinct_erase key.name hv) (not_mem_names_erase key.name es)
        (distinct_table_iff.2 hinner)
    · cases h

/-- Opening an element of a list of tables keeps names distinct. -/
theorem keeps_openElement (key : Key) (place : Span) : Keeps (openElement key place) := by
  intro v w hv h
  cases v with
  | scalar span value => cases h
  | array span vs => cases h
  | tables vs => cases h
  | table origin span es =>
    obtain ⟨es', hes', rfl⟩ := Option.map_eq_some_iff.1 h
    refine distinct_alterEntry (fun u w hu hw => ?_) hv hes'
    have hnew := distinct_newTable .explicit (some place)
    split at hw
    · cases hw
      exact .tables (by simpa using hnew)
    · next ts =>
      cases hw
      have hts := distinct_tables_iff.1 (hu _ rfl)
      exact .tables (List.forall_mem_append.2 ⟨hts, by simpa using hnew⟩)
    · cases hw

/-- Extending the span of a value keeps names distinct. -/
theorem Distinct.reach {v : Value} (h : v.Distinct) (last : Span) : (v.reach last).Distinct := by
  cases h with
  | scalar span value => exact .scalar ..
  | array span h => exact .array _ h
  | tables h => exact .tables h
  | table origin span names h =>
    cases span with
    | none => exact .table _ _ names h
    | some span => exact .table _ _ names h

end Value

/-! ## Documents -/

/-- The value of a statement, if it has one, has no name twice in a table. -/
def Statement.Distinct : Statement → Prop
  | .pair _ _ value => value.Distinct
  | .header .. => True
  | .element .. => True

/-- A statement puts no name twice into a table. -/
theorem step?_distinct {place place' : Place} {document document' : Value} {s : Statement}
    (hs : s.Distinct) (hdocument : document.Distinct)
    (h : step? place document s = some (place', document')) : document'.Distinct := by
  cases s with
  | pair path key value =>
    obtain ⟨d, hd, heq⟩ := Option.map_eq_some_iff.1 h
    cases heq
    refine Value.keeps_alterAt false (fun table w htable hw => ?_) place document _ hdocument hd
    obtain ⟨t, ht, rfl⟩ := Option.map_eq_some_iff.1 hw
    have hinsert := Value.keeps_insert path key hs table t htable ht
    split
    · exact hinsert.reach _
    · exact hinsert
  | header path key span =>
    obtain ⟨d, hd, heq⟩ := Option.map_eq_some_iff.1 h
    cases heq
    exact Value.keeps_alterAt false (Value.keeps_openTable key span) path document _ hdocument hd
  | element path key span =>
    obtain ⟨d, hd, heq⟩ := Option.map_eq_some_iff.1 h
    cases heq
    exact Value.keeps_alterAt false (Value.keeps_openElement key span) path document _ hdocument hd

/-- So do statements one after the other. -/
theorem buildFrom?_distinct {place : Place} {document v : Value} {ss : List Statement}
    (hss : ∀ s ∈ ss, s.Distinct) (hdocument : document.Distinct)
    (h : buildFrom? place document ss = some v) : v.Distinct := by
  induction ss generalizing place document with
  | nil =>
    cases h
    exact hdocument
  | cons s ss ih =>
    rw [List.forall_mem_cons] at hss
    rw [buildFrom?] at h
    split at h
    · cases h
    · next place' document' hstep =>
      exact ih hss.2 (step?_distinct hss.1 hdocument hstep) h

/-! ## Values that are read -/

/-- What holds of every item that is read holds of all items between commas. -/
theorem forall_separated {α : Type} {item : Reader α} {P : α → Prop}
    (hitem : ∀ ts x rest, item ts = some (x, rest) → P x) {close : Kind} {fuel : Nat}
    {ts rest : List Token} {xs : List α} {span : Span}
    (h : separated item close fuel ts = some ((xs, span), rest)) : ∀ x ∈ xs, P x := by
  induction fuel generalizing ts xs span rest with
  | zero => cases h
  | succ fuel ih =>
    rw [separated] at h
    split at h
    · cases h
      simp
    · obtain ⟨⟨x, ts'⟩, hx, h⟩ := Option.bind_eq_some_iff.1 h
      have hfirst := hitem _ _ _ hx
      dsimp only at h
      split at h
      · obtain ⟨⟨⟨ys, last⟩, ts''⟩, hys, h⟩ := Option.bind_eq_some_iff.1 h
        cases h
        exact List.forall_mem_cons.2 ⟨hfirst, ih hys⟩
      · obtain ⟨⟨last, ts''⟩, hlast, h⟩ := Option.bind_eq_some_iff.1 h
        cases h
        simpa using hfirst

/-- A pair has a value with distinct names. -/
theorem forall_pair? {value : Reader Value}
    (hvalue : ∀ ts v rest, value ts = some (v, rest) → v.Distinct) (ts : List Token)
    (p : (List Key × Key) × Value) (rest : List Token) (h : pair? value ts = some (p, rest)) :
    p.2.Distinct := by
  obtain ⟨⟨path, ts₁⟩, -, h⟩ := Option.bind_eq_some_iff.1 h
  obtain ⟨⟨span, ts₂⟩, -, h⟩ := Option.bind_eq_some_iff.1 h
  obtain ⟨⟨v, ts₃⟩, hv, h⟩ := Option.bind_eq_some_iff.1 h
  cases h
  exact hvalue _ _ _ hv

/-- Inserting pairs one after the other keeps names distinct. -/
theorem foldlM_insert_distinct {pairs : List ((List Key × Key) × Value)} {table v : Value}
    (hpairs : ∀ p ∈ pairs, p.2.Distinct) (htable : table.Distinct)
    (h : pairs.foldlM (fun table p => table.insert p.1.1 p.1.2 p.2) table = some v) :
    v.Distinct := by
  induction pairs generalizing table with
  | nil =>
    cases h
    exact htable
  | cons p pairs ih =>
    rw [List.forall_mem_cons] at hpairs
    obtain ⟨table', htable', h⟩ := Option.bind_eq_some_iff.1 h
    exact ih hpairs.2 (Value.keeps_insert p.1.1 p.1.2 hpairs.1 table table' htable htable') h

/-- A word is a value with distinct names. -/
theorem word?_distinct {ts rest : List Token} {v : Value} (h : word? ts = some (v, rest)) :
    v.Distinct := by
  cases ts with
  | nil => cases h
  | cons t ts =>
    obtain ⟨s, -, h⟩ := Option.map_eq_some_iff.1 h
    cases h
    exact .scalar ..

/-- No value that is read has a name twice in a table. -/
theorem value?_distinct (depth : Nat) (ts : List Token) (v : Value) (rest : List Token)
    (h : value? depth ts = some (v, rest)) : v.Distinct := by
  induction depth using Nat.strongRecOn generalizing ts v rest with
  | ind depth ih =>
    revert h
    fun_cases value? depth ts with
    | case1 =>
      intro h
      cases h
    | case2 t ts q hq =>
      intro h
      cases h
      exact .scalar ..
    | case3 t ts depth hk =>
      intro h
      obtain ⟨⟨⟨vs, close⟩, ts'⟩, hvs, h⟩ := Option.bind_eq_some_iff.1 h
      cases h
      exact .array _ (forall_separated (ih depth (Nat.lt_succ_self depth)) hvs)
    | case4 t ts depth hk =>
      intro h
      obtain ⟨⟨⟨ps, close⟩, ts'⟩, hps, h⟩ := Option.bind_eq_some_iff.1 h
      obtain ⟨w, hw, h⟩ := Option.bind_eq_some_iff.1 h
      cases h
      have hpairs := forall_separated (forall_pair? (ih depth (Nat.lt_succ_self depth))) hps
      exact foldlM_insert_distinct hpairs (Value.distinct_newTable ..) hw
    | case5 => exact word?_distinct
    | case6 => exact word?_distinct
    | case7 =>
      intro h
      cases h

/-- No statement that is read has one. -/
theorem statement?_distinct {ts rest : List Token} {s : Statement}
    (h : statement? ts = some (s, rest)) : s.Distinct := by
  revert h
  fun_cases statement? ts with
  | case1 first ts =>
    intro h
    obtain ⟨⟨⟨path, key⟩, ts'⟩, -, h⟩ := Option.bind_eq_some_iff.1 h
    dsimp only at h
    split at h
    · cases h
      trivial
    · cases h
  | case2 first ts hne =>
    intro h
    obtain ⟨⟨⟨path, key⟩, ts'⟩, -, h⟩ := Option.bind_eq_some_iff.1 h
    obtain ⟨⟨last, ts''⟩, -, h⟩ := Option.bind_eq_some_iff.1 h
    cases h
    trivial
  | case3 =>
    intro h
    obtain ⟨⟨⟨⟨path, key⟩, v⟩, ts'⟩, hpair, h⟩ := Option.bind_eq_some_iff.1 h
    cases h
    exact forall_pair? (value?_distinct maxDepth) _ _ _ hpair

/-- Every statement that is read has distinct names. -/
theorem statementsFrom_distinct {fuel : Nat} {ts : List Token} {ss : List Statement}
    (h : statementsFrom fuel ts = some ss) : ∀ s ∈ ss, s.Distinct := by
  induction fuel generalizing ts ss with
  | zero => cases h
  | succ fuel ih =>
    rw [statementsFrom] at h
    split at h
    · cases h
      simp
    · obtain ⟨⟨s, ts'⟩, hs, h⟩ := Option.bind_eq_some_iff.1 h
      obtain ⟨ts'', -, h⟩ := Option.bind_eq_some_iff.1 h
      obtain ⟨ss', hss, h⟩ := Option.bind_eq_some_iff.1 h
      cases h
      exact List.forall_mem_cons.2 ⟨statement?_distinct hs, ih hss⟩

/-- The table of a text has no name twice, and neither has a table inside it. -/
theorem parse?_distinct {t : List Char} {v : Value} (h : parse? t = some v) : v.Distinct := by
  obtain ⟨ts, -, h⟩ := Option.bind_eq_some_iff.1 h
  obtain ⟨ss, hss, h⟩ := Option.bind_eq_some_iff.1 h
  exact buildFrom?_distinct (statementsFrom_distinct hss) (Value.distinct_newTable ..) h

end HclQuery.Toml
