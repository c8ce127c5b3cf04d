import SoulLib.Memory.ArenaAlignment
import SoulLib.Memory.PoolAllocator

/-! Where the blocks of a pool lie.

A block is as large as an element or a free node, whichever is larger, rounded up
to the alignment of the elements. The free nodes have an alignment of their own.
-/

set_option autoImplicit false

namespace SoulLib.Memory

/-- `sizeof(FreeNode)`, which is `alignof(FreeNode)` too. -/
def freeNode : Nat := 8

namespace PoolTemplate

/-- What holds of every type, and the assertions of the class. -/
structure Accepted (template : PoolTemplate) : Prop where
  alignOf : ∃ exponent, template.alignOf = 2 ^ exponent
  alignment : ∃ exponent, template.alignment = 2 ^ exponent
  sizeOf : template.alignOf ∣ template.sizeOf

def block (template : PoolTemplate) (start i : Nat) : Nat := start + i * template.blockStride

/-- The blocks of a pool hold elements and free nodes. -/
structure ValidLayout (template : PoolTemplate) (start : Nat) : Prop where
  disjoint : ∀ i < template.blockCount, ∀ j < template.blockCount, i ≠ j →
    template.block start i + template.blockStride ≤ template.block start j ∨
      template.block start j + template.blockStride ≤ template.block start i
  inside : ∀ i < template.blockCount, template.block start i + template.blockStride ≤ start + template.totalSize
  room : template.sizeOf ≤ template.blockStride ∧ freeNode ≤ template.blockStride
  aligned : ∀ i < template.blockCount, template.alignment ∣ template.block start i
  nodes : ∀ i < template.blockCount, freeNode ∣ template.block start i

/-- What an element and a free node need, rounded up to the alignment of the elements. -/
def rounded (template : PoolTemplate) : Nat := roundUp (max template.sizeOf freeNode) template.alignment

/-- The pool does not wrap, and the second block starts at a multiple of the alignment of a free node. -/
structure Spaced (template : PoolTemplate) : Prop where
  fits : template.rounded * template.blockCount < 2 ^ 64
  nodes : template.blockCount = 1 ∨ freeNode ≤ template.alignment ∨ freeNode ∣ template.rounded

variable {template : PoolTemplate} {start : Nat}

theorem blockStride_eq_rounded (template : PoolTemplate) : template.blockStride = template.rounded :=
  template.blockStride_eq

theorem dvd_blockStride (template : PoolTemplate) : template.alignment ∣ template.blockStride := by
  rw [blockStride_eq]
  exact dvd_roundUp _ _

theorem disjoint_blocks {i j : Nat} (before : i < j) :
    template.block start i + template.blockStride ≤ template.block start j := by
  have next : (i + 1) * template.blockStride ≤ j * template.blockStride := Nat.mul_le_mul_right _ before
  rw [Nat.add_mul, Nat.one_mul] at next
  unfold block
  omega

theorem blocks_inside_iff :
    (∀ i < template.blockCount, template.block start i + template.blockStride ≤ start + template.totalSize) ↔
      template.blockStride * template.blockCount < 2 ^ 64 := by
  rw [← template.nodes_inside_iff]
  have node := template.node_le_blockStride
  constructor
  · intro inside i small
    have here := inside i small
    unfold block at here
    omega
  · intro nodes i small
    have fits := template.nodes_inside_iff.mp nodes
    have next : (i + 1) * template.blockStride ≤ template.blockCount * template.blockStride :=
      Nat.mul_le_mul_right _ small
    rw [Nat.add_mul, Nat.one_mul] at next
    rw [block, totalSize, Nat.mod_eq_of_lt fits, Nat.mul_comm template.blockStride]
    omega

/-- Among powers of two the smaller divides the larger. -/
theorem Accepted.freeNode_dvd (accepted : template.Accepted) (large : freeNode ≤ template.alignment) :
    freeNode ∣ template.alignment := by
  obtain ⟨exponent, same⟩ := accepted.alignment
  rw [same] at large ⊢
  have bound : 3 ≤ exponent := (Nat.pow_le_pow_iff_right Nat.one_lt_two).mp large
  exact Nat.pow_dvd_pow 2 bound

theorem Accepted.dvd_freeNode (accepted : template.Accepted) (small : template.alignment ≤ freeNode) :
    template.alignment ∣ freeNode := by
  obtain ⟨exponent, same⟩ := accepted.alignment
  rw [same] at small ⊢
  have bound : exponent ≤ 3 := (Nat.pow_le_pow_iff_right Nat.one_lt_two).mp small
  exact Nat.pow_dvd_pow 2 bound

theorem nodes_aligned_iff (aligned : freeNode ∣ start) :
    (∀ i < template.blockCount, freeNode ∣ template.block start i) ↔
      template.blockCount = 1 ∨ freeNode ∣ template.blockStride := by
  have count := template.blockCount_pos
  constructor
  · intro nodes
    by_cases single : template.blockCount = 1
    · exact .inl single
    · have second := nodes 1 (by omega)
      rw [block, Nat.one_mul] at second
      exact .inr ((Nat.dvd_add_iff_right aligned).mpr second)
  · rintro (single | stride) i small
    · obtain rfl : i = 0 := by omega
      rwa [block, Nat.zero_mul]
    · exact Nat.dvd_add aligned (stride.mul_left i)

end PoolTemplate

/-- The layout is valid exactly when the pool is spaced so. -/
theorem validLayout_iff {template : PoolTemplate} (accepted : template.Accepted) {start : Nat}
    (aligned : max template.alignment freeNode ∣ start) : template.ValidLayout start ↔ template.Spaced := by
  have both : template.alignment ∣ start ∧ freeNode ∣ start := by
    rcases Nat.le_total freeNode template.alignment with large | small
    · rw [Nat.max_eq_left large] at aligned
      exact ⟨aligned, (accepted.freeNode_dvd large).trans aligned⟩
    · rw [Nat.max_eq_right small] at aligned
      exact ⟨(accepted.dvd_freeNode small).trans aligned, aligned⟩
  have stride := template.blockStride_eq_rounded
  constructor
  · intro valid
    refine ⟨?_, ?_⟩
    · rw [← stride]
      exact template.blocks_inside_iff.mp valid.inside
    · rw [← stride]
      exact ((template.nodes_aligned_iff both.2).mp valid.nodes).imp_right .inr
  · intro spaced
    constructor
    · intro i _ j _ differ
      rcases Nat.lt_or_gt_of_ne differ with before | after
      · exact .inl (template.disjoint_blocks before)
      · exact .inr (template.disjoint_blocks after)
    · rw [template.blocks_inside_iff, stride]
      exact spaced.fits
    · exact ⟨template.sizeOf_le_blockStride, template.node_le_blockStride⟩
    · intro i _
      exact Nat.dvd_add both.1 (template.dvd_blockStride.mul_left i)
    · rw [template.nodes_aligned_iff both.2, stride]
      rcases spaced.nodes with single | large | even
      · exact .inl single
      · exact .inr ((accepted.freeNode_dvd large).trans (stride ▸ template.dvd_blockStride))
      · exact .inr even

/-- Two blocks for a type of twelve bytes, with the default alignment of that type. -/
def triples : PoolTemplate :=
  { PoolAllocator.pair with
    alignment := 4
    alignment_ge := Nat.le_refl _
    alignment_le := by decide }

/-- With an alignment of eight bytes the blocks are sixteen bytes apart. -/
theorem validLayout_pair : PoolAllocator.pair.ValidLayout 4096 :=
  (validLayout_iff ⟨⟨2, rfl⟩, ⟨3, rfl⟩, by decide⟩ (by decide)).mpr ⟨by decide, .inr (.inl (by decide))⟩

/-- The second block starts after twelve bytes, where no free node may be. -/
theorem triples_misaligned : triples.Accepted ∧ max triples.alignment freeNode ∣ 4096 ∧
    triples.block 4096 1 = 4108 ∧ ¬freeNode ∣ 4108 ∧ ¬triples.ValidLayout 4096 := by
  refine ⟨⟨⟨2, rfl⟩, ⟨2, rfl⟩, by decide⟩, by decide, by decide, by decide, ?_⟩
  intro valid
  exact absurd (valid.nodes 1 (by decide)) (by decide)

end SoulLib.Memory
