import HclQuery.Input
import HclQuery.Proofs.Configuration
import HclQuery.Proofs.Grammar.Joined

/-!
# Input made of several files

The bytes of files that are accepted by themselves are accepted together just when the files can be
joined, and their document then has the blocks of all of them.

Main definitions:

- {lit}`AcceptedFile`: a file that is accepted by itself.

Main results:

- Theorem {lit}`readAll_files`: what is read of files.
- Theorem {lit}`toDocument_flatMap`: the document of the bytes of several files.
- Theorem {lit}`gather_files`: the document of the input made of several files.
-/

namespace HclQuery

open Text Grammar

/-- The blocks among some items and the items after them. -/
theorem Block.ofItems_append (is js : List Tree.Item) :
    ofItems (is ++ js) = ofItems is ++ ofItems js := by
  induction is with
  | nil => rfl
  | cons i is ih =>
    rw [List.cons_append, ofItems, ofItems, ih]
    cases ofItem i <;> rfl

/-- The blocks of trees put together are the blocks of each. -/
theorem Block.ofItems_flatMap {α : Type} (f : α → Tree.Body) (xs : List α) :
    ofItems (xs.flatMap f) = xs.flatMap fun x => ofItems (f x) := by
  induction xs with
  | nil => rfl
  | cons x xs ih => rw [List.flatMap_cons, List.flatMap_cons, ofItems_append, ih]

/-- A file of a disk whose bytes and a newline are accepted. -/
structure AcceptedFile (disk : Disk) where
  path : String
  bytes : List UInt8
  text : List Char
  document : Document
  ne_dash : path ≠ Input.dash
  found : disk.find path = .ok (.file bytes)
  decoded : Utf8.decode (bytes ++ [0x0a]) = .ok text
  accepted : toDocument (bytes ++ [0x0a]) = .ok document

namespace AcceptedFile

variable {disk : Disk}

/-- The text of a file has a tree. -/
theorem exists_tree (f : AcceptedFile disk) :
    ∃ b, parse f.text = .ok b ∧ Block.ofItems b = f.document.blocks := by
  rcases toDocument_eq_ok.1 f.accepted with ⟨t, b, ht, hb, hdocument⟩
  rw [f.decoded] at ht
  cases ht
  exact ⟨b, hb, congrArg Document.blocks hdocument⟩

/-- The bytes of files are read as their texts. -/
theorem decode_flatMap (files : List (AcceptedFile disk)) :
    Utf8.decode (files.flatMap fun f => f.bytes ++ [0x0a]) = .ok (files.flatMap (·.text)) := by
  induction files with
  | nil => rfl
  | cons f files ih =>
    rw [List.flatMap_cons, List.flatMap_cons]
    exact Utf8.decode_append f.decoded ih

/-- The bytes of files are accepted together just when the files can be joined, and nothing but
their blocks is in the document. -/
theorem toDocument_flatMap (files : List (AcceptedFile disk)) {d : Document} :
    toDocument (files.flatMap fun f => f.bytes ++ [0x0a]) = .ok d ↔
      Joinable (files.map (·.text)) ∧ d.blocks = files.flatMap (·.document.blocks) := by
  choose tree hparse hblocks using fun f : AcceptedFile disk => f.exists_tree
  have hfs : ∀ p ∈ files.map fun f => (f.text, tree f),
      p.1.getLast? = some '\n' ∧ parse p.1 = .ok p.2 := by
    intro p hp
    rcases List.mem_map.1 hp with ⟨f, -, rfl⟩
    exact ⟨Utf8.getLast?_of_decode f.decoded, hparse f⟩
  have hofItems : Block.ofItems (files.flatMap tree) = files.flatMap (·.document.blocks) := by
    rw [Block.ofItems_flatMap]
    exact congrArg files.flatMap (funext hblocks)
  have hjoined : ∀ b, parse (files.flatMap (·.text)) = .ok b ↔
      Joinable (files.map (·.text)) ∧ b = files.flatMap tree := by
    intro b
    have hparts := parse_flatMap hfs (b := b)
    rw [List.flatMap_map, List.flatMap_map, List.map_map] at hparts
    exact hparts
  rw [toDocument_eq_ok]
  constructor
  · rintro ⟨t, b, ht, hb, rfl⟩
    rw [decode_flatMap] at ht
    cases ht
    rcases (hjoined b).1 hb with ⟨hjoinable, rfl⟩
    exact ⟨hjoinable, hofItems⟩
  · rintro ⟨hjoinable, hd⟩
    refine ⟨_, _, decode_flatMap files, (hjoined _).2 ⟨hjoinable, rfl⟩, ?_⟩
    rw [Document.ofTree, hofItems, ← hd]

/-- What is read of files: the bytes of each and a newline. -/
theorem readAll_files (stdin : List UInt8) (files : List (AcceptedFile disk)) :
    Input.readAll disk (.ok stdin) (files.map (·.path)) =
      .ok (files.flatMap fun f => f.bytes ++ [0x0a]) := by
  induction files with
  | nil => rfl
  | cons f files ih =>
    have hsource : Input.readSource disk (.ok stdin) f.path = .ok (f.bytes, .ok stdin) := by
      rw [Input.readSource, if_neg f.ne_dash, Input.readPath, Disk.openAt_of_file f.found]
      rfl
    rw [List.map_cons, Input.readAll, hsource, List.flatMap_cons, List.append_assoc]
    simp only [ih]
    rfl

end AcceptedFile

/-- Several files that are accepted by themselves are read together; the input is accepted just when
no file after the first begins with the mark and no file besides a lone object holds anything, and
its document has the blocks of the files in their order and nothing else. -/
theorem gather_files {disk : Disk} (stdin : List UInt8) {files : List (AcceptedFile disk)}
    (hne : files ≠ []) :
    ∃ input, Input.gather disk stdin (files.map (·.path)) = .ok input ∧
      ((∃ d, toDocument input.bytes = .ok d) ↔ Joinable (files.map (·.text))) ∧
      ∀ d, toDocument input.bytes = .ok d → d.blocks = files.flatMap (·.document.blocks) := by
  have hsources : Input.sources (files.map (·.path)) = files.map (·.path) := by
    rw [Input.sources, if_neg]
    simpa using hne
  refine ⟨⟨Input.nameOf (files.map (·.path)), files.flatMap fun f => f.bytes ++ [0x0a]⟩, ?_, ?_, ?_⟩
  · rw [Input.gather, Input.gatherFrom, hsources, AcceptedFile.readAll_files]
    rfl
  · constructor
    · rintro ⟨d, hd⟩
      exact ((AcceptedFile.toDocument_flatMap files).1 hd).1
    · intro hjoinable
      exact ⟨⟨_⟩, (AcceptedFile.toDocument_flatMap files).2 ⟨hjoinable, rfl⟩⟩
  · exact fun d hd => ((AcceptedFile.toDocument_flatMap files).1 hd).2

/-! ## Files of one block and of one object -/

/-- A file that is one block. -/
def blockFile : List UInt8 :=
  Utf8.encode ['a', ' ', '{', '\n', '}']

/-- The same file with the mark in front of it. -/
def markedFile : List UInt8 :=
  Utf8.encode ['\ufeff', 'a', ' ', '{', '\n', '}']

/-- A file that is one object. -/
def objectFile : List UInt8 :=
  Utf8.encode ['{', '\n', '}']

/-- The document of one block. -/
def oneBlock : Document :=
  ⟨[.mk "a" [] .empty []]⟩

/-- A disk with these files. -/
def threeFiles : Disk :=
  .ofEntries [("block.tf", .ok (.file blockFile)), ("marked.tf", .ok (.file markedFile)),
    ("object.tf", .ok (.file objectFile))]

/-- The block is accepted by itself. -/
def acceptedBlock : AcceptedFile threeFiles where
  path := "block.tf"
  bytes := blockFile
  text := ['a', ' ', '{', '\n', '}', '\n']
  document := oneBlock
  ne_dash := by decide
  found := ok_of_toOption (by decide +kernel)
  decoded := ok_of_toOption (by decide +kernel)
  accepted := ok_of_toOption (by decide +kernel)

/-- So is the block with the mark. -/
def acceptedMarked : AcceptedFile threeFiles where
  path := "marked.tf"
  bytes := markedFile
  text := ['\ufeff', 'a', ' ', '{', '\n', '}', '\n']
  document := oneBlock
  ne_dash := by decide
  found := ok_of_toOption (by decide +kernel)
  decoded := ok_of_toOption (by decide +kernel)
  accepted := ok_of_toOption (by decide +kernel)

/-- So is the object. -/
def acceptedObject : AcceptedFile threeFiles where
  path := "object.tf"
  bytes := objectFile
  text := ['{', '\n', '}', '\n']
  document := .empty
  ne_dash := by decide
  found := ok_of_toOption (by decide +kernel)
  decoded := ok_of_toOption (by decide +kernel)
  accepted := ok_of_toOption (by decide +kernel)

/-- The block with the mark may stand in front of the other one. -/
theorem gather_files_markedFirst :
    ∃ input, Input.gather threeFiles [] ["marked.tf", "block.tf"] = .ok input ∧
      toDocument input.bytes = .ok ⟨oneBlock.blocks ++ oneBlock.blocks⟩ := by
  have hne : [acceptedMarked, acceptedBlock] ≠ [] := List.cons_ne_nil _ _
  rcases gather_files [] hne with ⟨input, hinput, haccepted, hblocks⟩
  rcases haccepted.2 (by decide +kernel) with ⟨d, hd⟩
  refine ⟨input, hinput, ?_⟩
  rw [hd]
  exact congrArg (fun bs => Except.ok (Document.mk bs)) (hblocks d hd)

/-- Neither may the block with the mark follow the other one, nor may an object stand in front of
it. -/
theorem not_gather_files :
    (∃ input, Input.gather threeFiles [] [acceptedBlock.path, acceptedMarked.path] = .ok input ∧
        ∀ d, toDocument input.bytes ≠ .ok d) ∧
      ∃ input, Input.gather threeFiles [] [acceptedObject.path, acceptedBlock.path] = .ok input ∧
        ∀ d, toDocument input.bytes ≠ .ok d := by
  have hrefused : ∀ {bytes : List UInt8}, (toDocument bytes).toOption = none →
      ∀ d, toDocument bytes ≠ .ok d := by
    intro bytes hnone d hd
    rw [hd] at hnone
    cases hnone
  constructor
  · exact ⟨⟨"COMPOSITE", blockFile ++ 0x0a :: markedFile ++ [0x0a]⟩,
      ok_of_toOption (by decide +kernel), hrefused (by decide +kernel)⟩
  · exact ⟨⟨"COMPOSITE", objectFile ++ 0x0a :: blockFile ++ [0x0a]⟩,
      ok_of_toOption (by decide +kernel), hrefused (by decide +kernel)⟩

end HclQuery
