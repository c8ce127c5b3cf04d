import Mathlib.Data.List.Basic

/-! Data masked with a keystream.

The mask of a unit depends on its position alone, so masking twice changes
nothing and a prefix can be masked on its own.
-/

set_option autoImplicit false

namespace SoulLib.Semantics

variable {width : Nat} (stream : Nat → BitVec width) (data : List (BitVec width))

/-- Every unit, combined with the unit of the stream at its position. -/
def mask : List (BitVec width) := data.mapIdx fun i unit => unit ^^^ stream i

@[simp] theorem length_mask : (mask stream data).length = data.length := List.length_mapIdx

@[simp] theorem getElem?_mask (i : Nat) : (mask stream data)[i]? = data[i]?.map fun unit => unit ^^^ stream i :=
  List.getElem?_mapIdx

theorem mask_mask : mask stream (mask stream data) = data := by
  apply List.ext_getElem?
  intro i
  rw [getElem?_mask, getElem?_mask]
  cases data[i]? with
  | none => rfl
  | some unit => simp only [Option.map_some, BitVec.xor_assoc, BitVec.xor_self, BitVec.xor_zero]

theorem mask_take (count : Nat) : mask stream (data.take count) = (mask stream data).take count := by
  apply List.ext_getElem?
  intro i
  by_cases within : i < count
  · simp [List.getElem?_take_of_lt within]
  · simp only [getElem?_mask, List.getElem?_take, within, if_false, Option.map_none]

theorem mask_take_succ {i : Nat} {unit : BitVec width} (here : data[i]? = some unit) :
    mask stream (data.take (i + 1)) = mask stream (data.take i) ++ [unit ^^^ stream i] := by
  have bound : i < data.length := (List.getElem?_eq_some_iff.mp here).1
  rw [List.take_add_one, here, Option.toList_some, mask, List.mapIdx_append, List.length_take,
    Nat.min_eq_left (Nat.le_of_lt bound)]
  simp [mask]

/-- Another stream takes the mask off only where it agrees with the first. -/
theorem mask_mask_eq_iff {other : Nat → BitVec width} :
    mask other (mask stream data) = data ↔ ∀ i < data.length, other i = stream i := by
  constructor
  · intro restored i bound
    have here := congrArg (fun list => list[i]?) restored
    simp only [getElem?_mask, List.getElem?_eq_getElem bound, Option.map_some, Option.some.injEq] at here
    calc other i = data[i] ^^^ stream i ^^^ (data[i] ^^^ stream i ^^^ other i) := by
          rw [← BitVec.xor_assoc, BitVec.xor_self, BitVec.zero_xor]
      _ = stream i ^^^ (data[i] ^^^ data[i]) := by rw [here, BitVec.xor_comm data[i], BitVec.xor_assoc]
      _ = stream i := by rw [BitVec.xor_self, BitVec.xor_zero]
  · intro agree
    apply List.ext_getElem?
    intro i
    rw [getElem?_mask, getElem?_mask]
    cases found : data[i]? with
    | none => rfl
    | some unit =>
        have bound := (List.getElem?_eq_some_iff.mp found).1
        simp only [Option.map_some, agree i bound, BitVec.xor_assoc, BitVec.xor_self, BitVec.xor_zero]

theorem mask_append (first second : List (BitVec width)) :
    mask stream (first ++ second) = mask stream first ++ mask (fun i => stream (first.length + i)) second := by
  simp only [mask, List.mapIdx_append, Nat.add_comm]

/-- Pieces that were masked one by one are restored as a whole only if the stream repeats at each of them. -/
theorem mask_flatten_eq_iff (chunks : List (List (BitVec width))) (offset : Nat) :
    mask (fun i => stream (offset + i)) (chunks.map (mask stream)).flatten = chunks.flatten ↔
      ∀ before chunk after, chunks = before ++ chunk :: after →
        ∀ i < chunk.length, stream (offset + before.flatten.length + i) = stream i := by
  induction chunks generalizing offset with
  | nil => simp [mask]
  | cons chunk chunks ih =>
      have split : mask (fun i => stream (offset + i)) ((chunk :: chunks).map (mask stream)).flatten =
          mask (fun i => stream (offset + i)) (mask stream chunk) ++
            mask (fun i => stream (offset + chunk.length + i)) (chunks.map (mask stream)).flatten := by
        rw [List.map_cons, List.flatten_cons, mask_append, length_mask]
        simp only [Nat.add_assoc]
      rw [split, List.flatten_cons]
      have apart : mask (fun i => stream (offset + i)) (mask stream chunk) ++
            mask (fun i => stream (offset + chunk.length + i)) (chunks.map (mask stream)).flatten =
            chunk ++ chunks.flatten ↔
          mask (fun i => stream (offset + i)) (mask stream chunk) = chunk ∧
            mask (fun i => stream (offset + chunk.length + i)) (chunks.map (mask stream)).flatten = chunks.flatten :=
        ⟨fun same => List.append_inj same (by simp), fun same => by rw [same.1, same.2]⟩
      rw [apart, mask_mask_eq_iff, ih]
      constructor
      · rintro ⟨here, later⟩ before middle after same
        cases before with
        | nil =>
            obtain ⟨rfl, rfl⟩ := List.cons.inj same
            simpa using here
        | cons first before =>
            obtain ⟨rfl, rest⟩ := List.cons.inj same
            simpa [Nat.add_assoc] using later before middle after rest
      · intro every
        refine ⟨?_, ?_⟩
        · simpa using every [] chunk chunks rfl
        · intro before middle after same
          simpa [Nat.add_assoc] using every (chunk :: before) middle after (by rw [same]; rfl)

end SoulLib.Semantics
