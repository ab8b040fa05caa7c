import KarteOs.Syscall.RangeSpec
import KarteOs.X86.PageFault

/-! # What a page fault does to the address space

Every path of the handler leaves the kernel alone or maps the faulting page,
to a fresh frame or to the frame it had.
-/

namespace KarteOs.X86

universe u

open Mm RadixTree FrameSource Syscall Option

lemma valid_urw : (PTEFlags.urw .x86_64).contains (.valid .x86_64) := by decide

lemma valid_repairFlags {σ : Type u} (root : Nat) (k : Kernel σ) (f : Fault) :
    (repairFlags root k f).contains (.valid .x86_64) := by
  rw [repairFlags]
  cases k.registry.vmaQuery root f.addr with
  | none => exact valid_urw
  | some prot => exact valid_protToPteFlags .x86_64 prot

variable {σ : Type u} [FrameSource σ (2 ^ 40)] {pos : Layout} {root frame : Nat} {k k' : Kernel σ}
  {f : Fault} {handled : Bool} {page : Nat} {flags : PTEFlags .x86_64}

/-- Page `page` is now mapped with `flags` and no other mapping changed. The
frame is the old one, if the page was mapped other than to itself, or one that
was free. -/
structure MapsPage (root : Nat) (k k' : Kernel σ) (page : Nat) (flags : PTEFlags .x86_64) :
    Prop where
  space : ∃ pos', AddressSpace .x86_64 pos' k'.machine root
  registry : k'.registry = k.registry
  self : ∃ frame, pages .x86_64 k'.machine.mem root (pageNumber .x86_64 page) = some (frame, flags)
  other : ∀ m < pteCount ^ Arch.x86_64.ptLevels, m ≠ pageNumber .x86_64 page →
    pages .x86_64 k'.machine.mem root m = pages .x86_64 k.machine.mem root m

lemma mapsPage_of_fresh {pos₁ : Layout} {machine : Machine σ}
    (hmaps : MapsFresh .x86_64 pos pos₁ k.machine machine root (pageNumber .x86_64 page) frame
      flags) (hmachine : k'.machine = machine) (hregistry : k'.registry = k.registry) :
    MapsPage root k k' page flags := by
  subst hmachine
  refine ⟨⟨pos₁, hmaps.space⟩, hregistry, ⟨frame, ?_⟩, ?_⟩
  · rw [hmaps.pages _ (pageNumber_lt .x86_64 page), if_pos rfl]
  · intro m hm hne
    rw [hmaps.pages m hm, if_neg hne]

section
variable (hflags : flags.contains (.valid .x86_64) = true)
include hflags

variable (hspace : AddressSpace .x86_64 pos k.machine root)
include hspace

lemma mapFresh_cases {next : Option (Machine σ)}
    (hrun : mapFresh .x86_64 k.machine root page flags = some next) :
    next = none ∧ free k.machine.frames = ∅ ∨
      ∃ machine pos₁ frame, next = some machine ∧ (free k.machine.frames).Nonempty ∧
        MapsFresh .x86_64 pos pos₁ k.machine machine root (pageNumber .x86_64 page) frame
          flags := by
  cases next with
  | none =>
    refine .inl ⟨rfl, ?_⟩
    cases halloc : alloc k.machine.frames with
    | none => exact free_of_alloc_none halloc
    | some result => simp [mapFresh_eq halloc] at hrun
  | some machine =>
    obtain ⟨pos₁, frame, hmaps⟩ := mapFresh_spec hflags hspace hrun
    exact .inr ⟨machine, pos₁, frame, rfl, ⟨frame, hmaps.was_free⟩, hmaps⟩

lemma replaceFrame_cases (hrun : replaceFrame root k page flags = some (k', handled)) :
    handled = false ∧ k' = k ∧ free k.machine.frames = ∅ ∨
      handled ∧ (free k.machine.frames).Nonempty ∧ MapsPage root k k' page flags := by
  obtain ⟨next, hfresh, heq⟩ := map_eq_some_iff.mp hrun
  rcases mapFresh_cases hflags hspace hfresh with
    ⟨rfl, hnone⟩ | ⟨machine, pos₁, frame, rfl, hfree, hmaps⟩
  · cases heq
    exact .inl ⟨rfl, rfl, hnone⟩
  · cases heq
    exact .inr ⟨rfl, hfree, mapsPage_of_fresh hmaps rfl rfl⟩

lemma remapFrame_cases (hframe : translateUser .x86_64 k.machine.mem root page = some frame)
    (hrun : remapFrame root k page frame flags = some (k', handled)) :
    handled ∧ MapsPage root k k' page flags := by
  obtain ⟨machine, hmap, heq⟩ := map_eq_some_iff.mp hrun
  cases heq
  have hn := pageNumber_lt .x86_64 page
  rw [hspace.translateUser_eq] at hframe
  obtain ⟨old, hold, rfl⟩ := map_eq_some_iff.mp hframe
  obtain ⟨pos₁, hupdates⟩ := hspace.map_spec hmap
  refine ⟨rfl, ⟨pos₁, hupdates.space⟩, rfl, ⟨old.1, ?_⟩, ?_⟩
  · rw [hupdates.pages _ hn, if_pos rfl, leafAddr_div, leafOf_new hflags (hspace.pages_lt hn hold)]
  · intro m hm hne
    rw [hupdates.pages m hm, if_neg hne]

end

/-- A page that is to be repaired in place: an identity page of the ELF image is
refused, another identity page and, if `absent` is set, an unmapped one needs a
free frame. -/
def Repairable (root : Nat) (k : Kernel σ) (f : Fault) (absent : Bool) : Prop :=
  match translateUser .x86_64 k.machine.mem root f.pageAddr with
  | none => absent = true ∧ (free k.machine.frames).Nonempty
  | some frame => frame = f.pageAddr →
      k.registry.vmaIsElf root f.addr = false ∧ (free k.machine.frames).Nonempty

lemma repairPage_cases {absent : Bool} (hflags : flags.contains (.valid .x86_64))
    (hspace : AddressSpace .x86_64 pos k.machine root)
    (hrun : repairPage root k f flags absent = some (k', handled)) :
    handled = false ∧ k' = k ∧ ¬Repairable root k f absent ∨
      handled ∧ Repairable root k f absent ∧ MapsPage root k k' f.pageAddr flags := by
  simp only [repairPage, Repairable] at hrun ⊢
  cases htranslate : translateUser .x86_64 k.machine.mem root f.pageAddr with
  | none =>
    simp only [htranslate] at hrun
    split_ifs at hrun with habsent
    · simp only [habsent, true_and]
      rcases replaceFrame_cases hflags hspace hrun with ⟨hrefused, hk, hnone⟩ | hmapped
      · exact .inl ⟨hrefused, hk, Set.not_nonempty_iff_eq_empty.mpr hnone⟩
      · exact .inr hmapped
    · cases hrun
      exact .inl ⟨rfl, rfl, fun h => habsent h.1⟩
  | some frame =>
    simp only [htranslate] at hrun
    split_ifs at hrun with hidentity helf
    · cases hrun
      exact .inl ⟨rfl, rfl, fun h => absurd helf (by simp [(h hidentity).1])⟩
    · have helf' := Bool.not_eq_true _ |>.mp helf
      rcases replaceFrame_cases hflags hspace hrun with ⟨rfl, rfl, hnone⟩ | ⟨rfl, hfree, hmaps⟩
      · exact .inl ⟨rfl, rfl, fun h => Set.not_nonempty_iff_eq_empty.mpr hnone (h hidentity).2⟩
      · exact .inr ⟨rfl, fun _ => ⟨helf', hfree⟩, hmaps⟩
    · obtain ⟨rfl, hmaps⟩ := remapFrame_cases hflags hspace htranslate hrun
      exact .inr ⟨rfl, fun h => absurd h hidentity, hmaps⟩

section
variable (hspace : AddressSpace .x86_64 pos k.machine root)
include hspace

lemma protectionFault_cases (hrun : protectionFault root k f = some (k', handled)) :
    handled = false ∧ k' = k ∧ ¬(entitled root k f ∧ Repairable root k f false) ∨
      handled ∧ entitled root k f ∧ Repairable root k f false ∧
        MapsPage root k k' f.pageAddr (repairFlags root k f) := by
  rw [protectionFault] at hrun
  split_ifs at hrun with hentitled
  · simp only [hentitled, true_and]
    exact repairPage_cases (valid_repairFlags root k f) hspace hrun
  · cases hrun
    exact .inl ⟨rfl, rfl, fun h => hentitled h.1⟩

lemma heapFault_cases (hrun : heapFault root k f = some (k', handled)) : handled ∧
    (k' = k ∧ ¬(needsFrame .x86_64 k.machine root f.pageAddr ∧ (free k.machine.frames).Nonempty) ∨
      needsFrame .x86_64 k.machine root f.pageAddr ∧ (free k.machine.frames).Nonempty ∧
        MapsPage root k k' f.pageAddr (.urw .x86_64)) := by
  rw [heapFault] at hrun
  split_ifs at hrun with hneeds
  · obtain ⟨next, hfresh, heq⟩ := map_eq_some_iff.mp hrun
    rcases mapFresh_cases valid_urw hspace hfresh with
      ⟨rfl, hnone⟩ | ⟨machine, pos₁, frame, rfl, hfree, hmaps⟩
    · cases heq
      exact ⟨rfl, .inl ⟨rfl, fun h => Set.not_nonempty_iff_eq_empty.mpr hnone h.2⟩⟩
    · cases heq
      exact ⟨rfl, .inr ⟨hneeds, hfree, mapsPage_of_fresh hmaps rfl rfl⟩⟩
  · cases hrun
    exact ⟨rfl, .inl ⟨rfl, fun h => hneeds h.1⟩⟩

lemma regionFault_cases (hrun : regionFault root k f = some (k', handled)) : handled ∧
    (k' = k ∧ ¬(translateUser .x86_64 k.machine.mem root f.pageAddr = none ∧
        (free k.machine.frames).Nonempty) ∨
      translateUser .x86_64 k.machine.mem root f.pageAddr = none ∧
        (free k.machine.frames).Nonempty ∧ MapsPage root k k' f.pageAddr (.urw .x86_64)) := by
  rw [regionFault] at hrun
  split_ifs at hrun with hnone
  · have hnone' := isNone_iff_eq_none.mp hnone
    obtain ⟨next, hfresh, heq⟩ := map_eq_some_iff.mp hrun
    rcases mapFresh_cases valid_urw hspace hfresh with
      ⟨rfl, hempty⟩ | ⟨machine, pos₁, frame, rfl, hfree, hmaps⟩
    · cases heq
      exact ⟨rfl, .inl ⟨rfl, fun h => Set.not_nonempty_iff_eq_empty.mpr hempty h.2⟩⟩
    · cases heq
      exact ⟨rfl, .inr ⟨hnone', hfree, mapsPage_of_fresh hmaps rfl rfl⟩⟩
  · cases hrun
    exact ⟨rfl, .inl ⟨rfl, fun h => hnone (isNone_iff_eq_none.mpr h.1)⟩⟩

end

/-- The handler goes on to repair the page from its VMA or, for a present page,
from its region. -/
def Fault.attempted (root : Nat) (k : Kernel σ) (f : Fault) : Prop :=
  if f.isPresent then entitled root k f = true ∧ Repairable root k f false
  else f.canLazyAlloc = true ∧ (k.registry.vmaQuery root f.addr).any (· ≠ 0) = true ∧
    Repairable root k f true

lemma pageFaultHandler_cases (hspace : AddressSpace .x86_64 pos k.machine root)
    (hrun : pageFaultHandler root k f = some (k', handled)) : handled = false ∧ k' = k ∨
      f.attempted root k ∧ MapsPage root k k' f.pageAddr (repairFlags root k f) ∨
      k.registry.vmaQuery root f.addr = none ∧
        (k' = k ∨ MapsPage root k k' f.pageAddr (.urw .x86_64)) := by
  have hrejected : some (k, false) = some (k', handled) → handled = false ∧ k' = k := by
    intro heq
    cases heq
    exact ⟨rfl, rfl⟩
  cases hpresent : f.isPresent with
  | true =>
    simp only [pageFaultHandler, hpresent, if_true] at hrun
    rcases protectionFault_cases hspace hrun with ⟨hfalse, hk, -⟩ | ⟨-, hentitled, hrepair, hmaps⟩
    · exact .inl ⟨hfalse, hk⟩
    · refine .inr (.inl ⟨?_, hmaps⟩)
      rw [Fault.attempted, if_pos hpresent]
      exact ⟨hentitled, hrepair⟩
  | false =>
    simp only [pageFaultHandler, hpresent, Bool.false_eq_true, if_false] at hrun
    cases hlazy : f.canLazyAlloc with
    | false =>
      simp only [hlazy, Bool.not_false, if_true] at hrun
      exact .inl (hrejected hrun)
    | true =>
      simp only [hlazy, Bool.not_true, Bool.false_eq_true, if_false] at hrun
      cases hquery : k.registry.vmaQuery root f.addr with
      | some prot =>
        simp only [hquery] at hrun
        split_ifs at hrun with hprot
        · rcases repairPage_cases (valid_protToPteFlags .x86_64 prot) hspace hrun with
            ⟨hfalse, hk, -⟩ | ⟨-, hrepair, hmaps⟩
          · exact .inl ⟨hfalse, hk⟩
          · have hflags : repairFlags root k f = protToPteFlags .x86_64 prot := by
              rw [repairFlags, hquery]
              rfl
            refine .inr (.inl ⟨?_, hflags ▸ hmaps⟩)
            rw [Fault.attempted, if_neg (by simp [hpresent]), hquery]
            exact ⟨hlazy, by simpa using hprot, hrepair⟩
        · exact .inl (hrejected hrun)
      | none =>
        simp only [hquery] at hrun
        split_ifs at hrun with hheap hregion
        · obtain ⟨-, ⟨hk, -⟩ | ⟨-, -, hmaps⟩⟩ := heapFault_cases hspace hrun
          exacts [.inr (.inr ⟨rfl, .inl hk⟩), .inr (.inr ⟨rfl, .inr hmaps⟩)]
        · obtain ⟨-, ⟨hk, -⟩ | ⟨-, -, hmaps⟩⟩ := regionFault_cases hspace hrun
          exacts [.inr (.inr ⟨rfl, .inl hk⟩), .inr (.inr ⟨rfl, .inr hmaps⟩)]
        · exact .inl (hrejected hrun)

end KarteOs.X86
