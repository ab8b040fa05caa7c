import KarteOs.Mm.MapSpec

/-! # Effective permissions on x86_64

The processor grants an access only if every entry on the path of the page
grants it. In a sound address space the entries above the leaves grant
everything, so the effective permission of a page is that of its leaf.
-/

namespace KarteOs.Mm

universe u

open RadixTree FrameSource PTEFlags BitVec

inductive Permission where
  | user
  | write
  | execute
deriving DecidableEq

namespace Permission

def allowedBy : Permission → PTEFlags .x86_64 → Bool
  | user, flags => flags.isUser
  | write, flags => flags.isWritable
  | execute, flags => flags.isExecutable

/-- The flag bit that decides the permission, and the value that grants it. -/
def bit : Permission → Nat × Bool
  | user => (2, true)
  | write => (1, true)
  | execute => (63, false)

variable (p : Permission) (flags : PTEFlags .x86_64)

lemma allowedBy_eq : p.allowedBy flags = (flags.bits.getLsbD p.bit.1 == p.bit.2) := by
  cases p with
  | user =>
    change flags.contains (.single .x86_64 2) = _
    rw [contains_single (by decide)]
    exact (beq_true _).symm
  | write =>
    change flags.contains (.single .x86_64 1) = _
    rw [contains_single (by decide)]
    exact (beq_true _).symm
  | execute =>
    change (!flags.contains (.single .x86_64 63)) = _
    rw [contains_single (by decide)]
    exact (beq_false _).symm

lemma allowedBy_flags (pte : PTE) :
    p.allowedBy (pte.flags .x86_64) = (pte.getLsbD p.bit.1 == p.bit.2) := by
  have hmask : Arch.x86_64.flagMask.getLsbD p.bit.1 := by cases p <;> decide
  rw [allowedBy_eq, PTE.flags, bits_fromBitsTruncate, getLsbD_and, hmask, Bool.and_true]

lemma allowedBy_of_permissive {pte : PTE} (hpte : pte.Permissive .x86_64) :
    p.allowedBy (pte.flags .x86_64) := by
  obtain ⟨hwrite, huser, hnx⟩ := hpte
  rw [allowedBy_flags]
  cases p with
  | user => simp [bit, huser]
  | write => simp [bit, hwrite]
  | execute => simp only [bit, hnx, beq_self_eq_true]

lemma allowedBy_stripHuge : p.allowedBy (stripHuge flags) = p.allowedBy flags := by
  have hmask : Arch.x86_64.flagMask.getLsbD p.bit.1 := by cases p <;> decide
  have hps : ps.bits.getLsbD p.bit.1 = false := by cases p <;> decide
  have hlt : p.bit.1 < 64 := by cases p <;> decide
  rw [allowedBy_eq, allowedBy_eq, stripHuge, difference, bits_fromBitsTruncate,
    getLsbD_and, getLsbD_and, getLsbD_not, hmask, hps]
  simp [hlt]

end Permission

/-- Every entry on the path of `vaddr` is present and grants the permission. -/
def permittedFrom (p : Permission) (mem : Memory) (vaddr : Nat) : Nat → Nat → Bool
  | 0, table =>
    let entry := mem table (vpn vaddr 0)
    entry.isValid .x86_64 && p.allowedBy (entry.flags .x86_64)
  | level + 1, table =>
    let entry := mem table (vpn vaddr (level + 1))
    entry.isValid .x86_64 && p.allowedBy (entry.flags .x86_64) &&
      (entry.isHuge .x86_64 || permittedFrom p mem vaddr level (entry.ppn .x86_64))

/-- The processor grants the permission for `vaddr` under the given root. -/
def permitted (p : Permission) (mem : Memory) (root vaddr : Nat) : Bool :=
  permittedFrom p mem vaddr (rootLevel .x86_64) root

variable {σ : Type u} [FrameSource σ (2 ^ 40)] {pos : Layout} {s : Machine σ} {root : Nat}

lemma Sound.permittedFrom_eq (hs : Sound .x86_64 pos s) (p : Permission) {level table : Nat}
    (hlevel : level ≤ rootLevel .x86_64) {vaddr : Nat}
    (hat : (format .x86_64).At pos table level (pageNumber .x86_64 vaddr)) :
    permittedFrom p s.mem vaddr level table =
      (leafOf .x86_64 ((format .x86_64).lookup s.mem level table (pageNumber .x86_64 vaddr))
        (pageNumber .x86_64 vaddr)).any fun leaf => p.allowedBy leaf.2 := by
  refine hs.walk_eq (g := fun found => (leafOf .x86_64 found _).any _) (fun table => ?_)
    (fun level table hvalid => ?_) (fun table hok hvalid hhuge => ?_)
    (fun level table hok hvalid hhuge => ?_) hlevel hat
  · rw [permittedFrom]
    cases hvalid : (s.mem table (vpn vaddr 0)).isValid .x86_64 with
    | false => rw [leafOf_invalid hvalid]; rfl
    | true => rw [leafOf_zero hvalid]; rfl
  · rw [leafOf_invalid hvalid]
    simp [permittedFrom, hvalid]
  · rw [leafOf_huge hvalid hhuge, Option.any_some, Permission.allowedBy_stripHuge]
    simp [permittedFrom, hvalid, hhuge]
  · have hallowed := p.allowedBy_of_permissive (hok.table hvalid hhuge).2
    simp [permittedFrom, hvalid, hhuge, hallowed]

lemma AddressSpace.permitted_eq (hspace : AddressSpace .x86_64 pos s root) (p : Permission)
    (vaddr : Nat) : permitted p s.mem root vaddr =
      (pages .x86_64 s.mem root (pageNumber .x86_64 vaddr)).any fun leaf => p.allowedBy leaf.2 :=
  hspace.permittedFrom_eq p le_rfl (hspace.root_at (pageNumber_lt .x86_64 vaddr))

/-- User mode can reach the page: on x86_64 every entry on the path has to say
so, on riscv64 only the leaf. -/
def effectiveUser : Arch → Memory → Nat → Nat → Bool
  | .riscv64, mem, root, vaddr =>
    (pages .riscv64 mem root (pageNumber .riscv64 vaddr)).any fun leaf => leaf.2.isUser
  | .x86_64, mem, root, vaddr => permitted .user mem root vaddr

lemma AddressSpace.effectiveUser_eq {arch : Arch} (hspace : AddressSpace arch pos s root)
    (vaddr : Nat) : effectiveUser arch s.mem root vaddr =
      (pages arch s.mem root (pageNumber arch vaddr)).any fun leaf => leaf.2.isUser := by
  cases arch with
  | riscv64 => rfl
  | x86_64 => exact hspace.permitted_eq .user vaddr

end KarteOs.Mm
