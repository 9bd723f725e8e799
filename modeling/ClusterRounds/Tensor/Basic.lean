/-
  ClusterRounds.Tensor.Basic

  Arrays of any number of axes: a shape and the entries in row-major order, as many
  as the shape has. An array with at least one axis is a list of rows (`rowLists`
  gives their entries, `rows` the arrays), and `zipWith` brings two arrays to a
  common shape before it combines them entry by entry.
-/

import ClusterRounds.Tensor.Shape

namespace ClusterRounds

structure Tensor (α : Type) where
  shape : Shape
  entries : List α
  length_entries : entries.length = shape.size

/-- A list cut into `n` pieces of `width` entries. -/
def pieces {α : Type} (width : Nat) : Nat → List α → List (List α)
  | 0, _ => []
  | n + 1, xs => xs.take width :: pieces width n (xs.drop width)

theorem length_pieces {α : Type} (width : Nat) :
    ∀ (n : Nat) (xs : List α), (pieces width n xs).length = n
  | 0, _ => rfl
  | n + 1, xs => by simp [pieces, length_pieces width n]

theorem flatten_pieces {α : Type} (width : Nat) :
    ∀ (n : Nat) (xs : List α), xs.length = n * width → (pieces width n xs).flatten = xs
  | 0, xs, h => by
    have : xs = [] := List.eq_nil_of_length_eq_zero (by simpa using h)
    simp [pieces, this]
  | n + 1, xs, h => by
    have h' : (xs.drop width).length = n * width := by
      rw [List.length_drop, h, Nat.add_mul]; omega
    simp [pieces, flatten_pieces width n _ h', List.take_append_drop]

theorem length_of_mem_pieces {α : Type} (width : Nat) :
    ∀ (n : Nat) (xs : List α), xs.length = n * width →
      ∀ piece ∈ pieces width n xs, piece.length = width
  | 0, _, _, _, hp => by simp [pieces] at hp
  | n + 1, xs, h, piece, hp => by
    have h' : (xs.drop width).length = n * width := by
      rw [List.length_drop, h, Nat.add_mul]; omega
    rcases List.mem_cons.1 hp with rfl | hp
    · rw [List.length_take, h, Nat.add_mul]; omega
    · exact length_of_mem_pieces width n _ h' piece hp

namespace Tensor

variable {α β γ : Type}

/-! ## Making arrays -/

def vector (xs : List α) : Tensor α := ⟨[xs.length], xs, by simp⟩

/-- The array of a shape with the given entries, if there are as many as it has. -/
def ofEntries? (shape : Shape) (entries : List α) : Option (Tensor α) :=
  if h : entries.length = shape.size then some ⟨shape, entries, h⟩ else none

/-- The array of a shape with the same entry everywhere. -/
def filled (shape : Shape) (x : α) : Tensor α :=
  ⟨shape, List.replicate shape.size x, by simp⟩

/-- The matrix without rows and columns. -/
def noPoints : Tensor α := ⟨[0, 0], [], by simp⟩

/-- The array whose rows are those given, each with the entries of the inner shape; rows of another
    length are left out. -/
def ofRowLists (inner : Shape) (rows : List (List α)) : Tensor α :=
  let kept := rows.filter (·.length = inner.size)
  ⟨kept.length :: inner, kept.flatten, by
    have h : ∀ row ∈ kept, row.length = inner.size := by
      intro row hr
      have := (List.mem_filter.1 hr).2
      simpa using this
    clear_value kept
    induction kept with
    | nil => simp
    | cons row rest ih =>
      have hr := h row (by simp)
      have := ih fun r hr' => h r (by simp [hr'])
      simp only [List.flatten_cons, List.length_append, List.length_cons, Shape.size_cons] at *
      rw [this, hr, Nat.add_mul]; omega⟩

/-! ## Taking arrays apart -/

def rank (t : Tensor α) : Nat := t.shape.length

def map (f : α → β) (t : Tensor α) : Tensor β :=
  ⟨t.shape, t.entries.map f, by simp [t.length_entries]⟩

def axis (t : Tensor α) (i : Nat) : Except OperandFault Nat :=
  match t.shape[i]? with
  | some n => .ok n
  | none => .error .missingAxis

def rowCount (t : Tensor α) : Except OperandFault Nat := t.axis 0

/-- The number of rows of an array, one without axes having none. -/
def rowTotal (t : Tensor α) : Nat := t.shape.headD 0

/-- The number of coordinates of each row. -/
def width (t : Tensor α) : Except OperandFault Nat := t.axis 1

def innerShape (t : Tensor α) : Shape := t.shape.tail

/-- The entries of each row; an array without axes has no rows. -/
def rowLists (t : Tensor α) : List (List α) :=
  match t.shape with
  | [] => []
  | n :: inner => pieces (Shape.size inner) n t.entries

/-- Rows of one shape out of a list of entries. -/
def rowsFrom (inner : Shape) :
    (n : Nat) → (xs : List α) → xs.length = n * inner.size → List (Tensor α)
  | 0, _, _ => []
  | n + 1, xs, h =>
    ⟨inner, xs.take inner.size, by rw [List.length_take, h, Nat.add_mul]; omega⟩ ::
      rowsFrom inner n (xs.drop inner.size) (by rw [List.length_drop, h, Nat.add_mul]; omega)

/-- The rows, as arrays of their own. -/
def rows (t : Tensor α) : List (Tensor α) :=
  match h : t.shape with
  | [] => []
  | n :: inner => rowsFrom inner n t.entries (by rw [t.length_entries, h]; rfl)

/-- The rows at the given places; places beyond the array are left out. -/
def pick (t : Tensor α) (places : List Nat) : Tensor α :=
  let rows := t.rowLists.toArray
  ofRowLists t.innerShape (places.filterMap fun i => rows[i]?)

/-- An array with fewer than two axes as a matrix with one row. -/
def atLeastMatrix (t : Tensor α) : Tensor α :=
  match h : t.shape with
  | [] => ⟨[1, 1], t.entries, by simpa [h] using t.length_entries⟩
  | [n] => ⟨[1, n], t.entries, by simpa [h] using t.length_entries⟩
  | _ => t

/-! ## Common shapes -/

/-- Repeats entries along the axes of length one until they fill the shape `t`. -/
def stretch : Shape → Shape → List α → List α
  | a :: s, b :: t, xs =>
    if a = b then ((pieces (Shape.size s) a xs).map (stretch s t)).flatten
    else (List.replicate b (stretch s t xs)).flatten
  | _, _, xs => xs

theorem length_stretch : ∀ (s t : Shape) (xs : List α), s.Fills t → xs.length = s.size →
    (stretch s t xs).length = t.size
  | [], [], xs, _, h => by simpa [stretch] using h
  | a :: s, b :: t, xs, hf, h => by
    obtain ⟨hab, hst⟩ := hf
    unfold stretch
    split
    · rename_i e
      subst e
      have hl : ∀ row ∈ (pieces (Shape.size s) a xs).map (stretch s t), row.length = Shape.size t := by
        intro row hr
        obtain ⟨piece, hp, rfl⟩ := List.mem_map.1 hr
        exact length_stretch s t piece hst (length_of_mem_pieces _ _ _ h piece hp)
      have hn : ((pieces (Shape.size s) a xs).map (stretch s t)).length = a := by simp [length_pieces]
      rw [List.length_flatten, List.map_congr_left hl, List.map_const', List.sum_replicate_nat, hn]
      rfl
    · rename_i e
      have ha : a = 1 := hab.resolve_left e
      have := length_stretch s t xs hst (by simpa [ha] using h)
      simp [List.length_flatten, this]
  | [], _ :: _, _, hf, _ => hf.elim
  | _ :: _, [], _, hf, _ => hf.elim

/-- An array brought to a shape that it can fill, missing outer axes counting as ones. -/
def stretchTo (t : Tensor α) (target : Shape) : Except OperandFault (Tensor α) :=
  let source := t.shape.padTo target.length
  if h : source.Fills target then
    .ok ⟨target, stretch source target t.entries,
      length_stretch _ _ _ h (by rw [t.length_entries]; exact (Shape.size_padTo _ _).symm)⟩
  else .error .shapesDiffer

/-- Combines two arrays of one shape entry by entry. -/
def zipSame (f : α → β → γ) (a : Tensor α) (b : Tensor β) (h : a.shape = b.shape) : Tensor γ :=
  ⟨a.shape, List.zipWith f a.entries b.entries, by
    rw [List.length_zipWith, a.length_entries, b.length_entries, h]; omega⟩

/-- Combines two arrays entry by entry, in their common shape. -/
def zipWith (f : α → β → γ) (a : Tensor α) (b : Tensor β) : Except OperandFault (Tensor γ) :=
  if h : a.shape = b.shape then .ok (zipSame f a b h)
  else
    match Shape.join a.shape b.shape with
    | none => .error .shapesDiffer
    | some target =>
      match a.stretchTo target, b.stretchTo target with
      | .ok a, .ok b =>
        if h : a.shape = b.shape then .ok (zipSame f a b h) else .error .shapesDiffer
      | _, _ => .error .shapesDiffer

/-! ## Putting arrays together -/

/-- The rows of all arrays, one array after the other. The inner shapes have to agree. -/
def stack : List (Tensor α) → Except OperandFault (Tensor α)
  | [] => .error .noElements
  | t :: rest =>
    if t.shape = [] then .error .missingAxis
    else if rest.all (fun u => u.shape ≠ [] && u.innerShape = t.innerShape) then
      .ok (ofRowLists t.innerShape ((t :: rest).flatMap rowLists))
    else .error .shapesDiffer

end Tensor

end ClusterRounds
