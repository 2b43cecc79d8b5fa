import Mathlib.Data.List.Range
import Mathlib.Logic.Function.Basic

/-! # Files, and what is written to them

    A file is its length and the writes made to it, oldest first; a file system
    is a map from paths to files.  None of the operations here makes a file
    shorter: `File.Extends` and `Files.Grows` say so, and compose.

    `Appended` is the state of a file that is being written from its start, one
    byte after the other, from a given source. -/

namespace FileSystem

/-- Bytes written at an offset. -/
structure FileWrite where
  offset : Nat
  bytes : List UInt8
  deriving DecidableEq, Repr

/-- A file: its length and the writes made to it, oldest first. -/
structure File where
  length : Nat := 0
  writes : List FileWrite := []
  deriving DecidableEq, Repr

/-- The positions a list of writes puts a byte at, in the order they do. -/
def positions (writes : List FileWrite) : List Nat :=
  writes.flatMap (fun w => List.range' w.offset w.bytes.length)

/-- The bytes a list of writes puts there, in the same order. -/
def payload (writes : List FileWrite) : List UInt8 :=
  writes.flatMap FileWrite.bytes

/-- An open file and the position in it. -/
structure OpenFile where
  file : File
  position : Nat := 0
  deriving DecidableEq, Repr

/-- Write bytes at the position, and move it behind them. -/
def OpenFile.write (f : OpenFile) (bytes : List UInt8) : OpenFile :=
  { file :=
      { length := max f.file.length (f.position + bytes.length)
        writes := f.file.writes ++ [⟨f.position, bytes⟩] }
    position := f.position + bytes.length }

/-- Allocate the first `n` bytes: a shorter file gets that length. -/
def OpenFile.allocate (f : OpenFile) (n : Nat) : OpenFile :=
  { f with file := { f.file with length := max f.file.length n } }

/-! ## Growth -/

/-- A later state of a file that has lost nothing. -/
structure File.Extends (f g : File) : Prop where
  length : f.length ≤ g.length
  writes : f.writes <+: g.writes

theorem File.Extends.refl (f : File) : f.Extends f :=
  ⟨Nat.le_refl _, List.prefix_refl _⟩

theorem File.Extends.trans {f g h : File} (hfg : f.Extends g) (hgh : g.Extends h) :
    f.Extends h :=
  ⟨Nat.le_trans hfg.length hgh.length, hfg.writes.trans hgh.writes⟩

/-! ## Writing from the start -/

/-- Since the file was opened as `base`, exactly its first `k` bytes have been
    written, each once and in order, with the bytes of the source. -/
structure Appended (base : File) (source : Nat → UInt8) (k : Nat) (f : OpenFile) :
    Prop where
  position : f.position = k
  base_le : base.length ≤ f.file.length
  length : k ≤ f.file.length
  writes : ∃ ws, f.file.writes = base.writes ++ ws ∧ positions ws = List.range k ∧
    payload ws = (List.range k).map source

section Appended

variable {base : File} {source : Nat → UInt8} {k : Nat} {f : OpenFile}

/-- A file that was just opened. -/
theorem Appended.start (base : File) (source : Nat → UInt8) :
    Appended base source 0 { file := base } :=
  ⟨rfl, Nat.le_refl _, Nat.zero_le _, [], (List.append_nil _).symm, rfl, rfl⟩

theorem Appended.extends (h : Appended base source k f) : base.Extends f.file := by
  obtain ⟨ws, hws, -, -⟩ := h.writes
  exact ⟨h.base_le, hws ▸ List.prefix_append _ _⟩

/-- Allocating changes none of it. -/
theorem Appended.allocate (h : Appended base source k f) (n : Nat) :
    Appended base source k (f.allocate n) :=
  ⟨h.position, Nat.le_trans h.base_le (Nat.le_max_left _ _),
    Nat.le_trans h.length (Nat.le_max_left _ _), h.writes⟩

/-- The next bytes of the source, written at the position. -/
theorem Appended.write (h : Appended base source k f) (n : Nat) :
    Appended base source (k + n)
      (f.write ((List.range n).map (fun i => source (k + i)))) := by
  have hlen : ((List.range n).map (fun i => source (k + i))).length = n := by
    rw [List.length_map, List.length_range]
  obtain ⟨ws, hws, hpos, hpay⟩ := h.writes
  constructor
  · show f.position + _ = k + n
    rw [hlen, h.position]
  · exact Nat.le_trans h.base_le (Nat.le_max_left _ _)
  · show k + n ≤ max f.file.length (f.position + _)
    rw [hlen, h.position]
    exact Nat.le_max_right _ _
  · refine ⟨ws ++ [⟨f.position, (List.range n).map (fun i => source (k + i))⟩],
      ?_, ?_, ?_⟩
    · show f.file.writes ++ _ = base.writes ++ (ws ++ _)
      rw [hws, List.append_assoc]
    · rw [positions, List.flatMap_append, ← positions, hpos, List.flatMap_singleton]
      show List.range k ++ List.range' f.position _ = List.range (k + n)
      rw [hlen, h.position, List.range_eq_range', List.range_eq_range']
      have happ := @List.range'_append_1 0 k n
      rw [Nat.zero_add] at happ
      exact happ
    · rw [payload, List.flatMap_append, ← payload, hpay, List.flatMap_singleton,
        List.range_add, List.map_append, List.map_map]
      rfl

end Appended

/-! ## File systems -/

section Files

variable {P : Type}

/-- The files there are, by path. -/
abbrev Files (P : Type) := P → Option File

/-- Is there a file at this path? -/
def Files.exists (files : Files P) (path : P) : Bool := (files path).isSome

/-- The file at a path, or an empty one. -/
def Files.at (files : Files P) (path : P) : File := (files path).getD {}

/-- Every file there was is still there, and none is shorter. -/
def Files.Grows (files files' : Files P) : Prop :=
  ∀ path f, files path = some f → ∃ g, files' path = some g ∧ f.Extends g

theorem Files.Grows.refl (files : Files P) : files.Grows files :=
  fun _ f hf => ⟨f, hf, File.Extends.refl f⟩

theorem Files.Grows.trans {files₁ files₂ files₃ : Files P}
    (h₁₂ : files₁.Grows files₂) (h₂₃ : files₂.Grows files₃) :
    files₁.Grows files₃ := by
  intro path f hf
  obtain ⟨g, hg, hfg⟩ := h₁₂ path f hf
  obtain ⟨h, hh, hgh⟩ := h₂₃ path g hg
  exact ⟨h, hh, hfg.trans hgh⟩

/-- No file goes away while they grow. -/
theorem Files.Grows.exists {files files' : Files P} (h : files.Grows files')
    {path : P} (hp : files.exists path = true) : files'.exists path = true := by
  obtain ⟨f, hf⟩ := Option.isSome_iff_exists.mp hp
  obtain ⟨g, hg, -⟩ := h path f hf
  exact Option.isSome_iff_exists.mpr ⟨g, hg⟩

variable [DecidableEq P]

/-- Put a file at a path. -/
def Files.store (files : Files P) (path : P) (file : File) : Files P :=
  Function.update files path (some file)

/-- Open a file; one that is not there is created empty, one that is keeps its
    contents. -/
def Files.create (files : Files P) (path : P) : Files P :=
  files.store path (files.at path)

/-- Open files to write them anew, one after the other: they are there, and empty. -/
def Files.truncate (files : Files P) (paths : List P) : Files P :=
  paths.foldl (fun files path => files.store path {}) files

/-- Remove a file. -/
def Files.remove (files : Files P) (path : P) : Files P :=
  Function.update files path none

theorem Files.store_self (files : Files P) (path : P) (file : File) :
    files.store path file path = some file :=
  Function.update_self ..

/-- Storing a file leaves the others as they are. -/
theorem Files.store_of_ne (files : Files P) {path path' : P} (file : File)
    (h : path' ≠ path) : files.store path file path' = files path' :=
  Function.update_of_ne h ..

/-- A second file put at the same path replaces the first. -/
theorem Files.store_store (files : Files P) (path : P) (f g : File) :
    (files.store path f).store path g = files.store path g :=
  Function.update_idem ..

/-- Putting an extension of a file in its place loses nothing. -/
theorem Files.grows_store (files : Files P) {path : P} {g : File}
    (h : (files.at path).Extends g) : files.Grows (files.store path g) := by
  intro path' f hf
  by_cases hp : path' = path
  · subst hp
    refine ⟨g, files.store_self path' g, ?_⟩
    rw [Files.at, hf] at h
    exact h
  · exact ⟨f, by rw [files.store_of_ne g hp, hf], File.Extends.refl f⟩

theorem Files.exists_store (files : Files P) (path : P) (file : File) (path' : P) :
    (files.store path file).exists path' = true ↔
      path' = path ∨ files.exists path' = true := by
  by_cases hp : path' = path
  · subst hp
    simp [Files.exists, files.store_self]
  · simp [Files.exists, files.store_of_ne file hp, hp]

/-- After truncating there are these files and those from before. -/
theorem Files.exists_truncate (files : Files P) (paths : List P) (path' : P) :
    (files.truncate paths).exists path' = true ↔
      path' ∈ paths ∨ files.exists path' = true := by
  induction paths generalizing files with
  | nil => simp [Files.truncate]
  | cons path paths ih =>
      rw [Files.truncate, List.foldl_cons, ← Files.truncate, ih, Files.exists_store,
        List.mem_cons, ← or_assoc, or_comm (a := path' ∈ paths)]

theorem Files.exists_remove (files : Files P) (path path' : P) :
    (files.remove path).exists path' = true ↔
      path' ≠ path ∧ files.exists path' = true := by
  by_cases hp : path' = path
  · subst hp
    simp [Files.exists, Files.remove]
  · simp [Files.exists, Files.remove, hp]

end Files

end FileSystem
