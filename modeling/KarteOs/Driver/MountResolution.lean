import KarteOs.Driver.Vfs

/-! # Which mount a path leads to

The search compares strings. It finds the mount whose mount point is the longest sequence of
leading components of the path, whatever the order of the mounts.
-/

namespace KarteOs.Driver.VfsState

open List Option

universe u

lemma intercalate_append {α : Type u} {sep : List α} {first second : List (List α)}
    (hfirst : first ≠ []) (hsecond : second ≠ []) :
    sep.intercalate (first ++ second) = sep.intercalate first ++ sep ++ sep.intercalate second := by
  induction first with
  | nil => exact absurd rfl hfirst
  | cons part first ih =>
    rw [cons_append, intercalate_cons_of_ne_nil (by simp [hsecond])]
    by_cases hnil : first = []
    · rw [hnil, nil_append, intercalate_singleton]
    · rw [ih hnil, intercalate_cons_of_ne_nil hnil]
      simp

/-- The components of a mount point: the root has none. -/
def components (point : Path) : List Path := if point = [] then [] else point.splitOn '/'

/-- The path below a mount point, with the mount at the root for every path. -/
def matched (point trimmed : Path) : Option Path :=
  if point = [] then some trimmed else below point trimmed

section
variable {point trimmed relative : Path}

lemma below_eq_some_iff : below point trimmed = some relative ↔
    ∃ rest, trimmed.splitOn '/' = point.splitOn '/' ++ rest ∧
      relative = ['/'].intercalate rest := by
  constructor
  · intro hbelow
    rw [below] at hbelow
    split at hbelow
    · next hprefix =>
      obtain ⟨rest, rfl⟩ := isPrefixOf_iff_prefix.mp hprefix
      rw [drop_left] at hbelow
      split at hbelow
      · cases hbelow
        exact ⟨[], by simp, rfl⟩
      · cases hbelow
        exact ⟨_, splitOn_append_cons_self .., (intercalate_splitOn _).symm⟩
      · cases hbelow
    · cases hbelow
  · rintro ⟨rest, hparts, rfl⟩
    have htrimmed : ['/'].intercalate (trimmed.splitOn '/') = trimmed := intercalate_splitOn _
    by_cases hrest : rest = []
    · rw [hparts, hrest, append_nil, intercalate_splitOn] at htrimmed
      simp [← htrimmed, hrest, below]
    · rw [hparts, intercalate_append (splitOn_ne_nil _ _) hrest, intercalate_splitOn,
        append_assoc] at htrimmed
      simp [← htrimmed, below]

lemma matched_eq_some_iff : matched point trimmed = some relative ↔
    ∃ rest, trimmed.splitOn '/' = components point ++ rest ∧ relative = ['/'].intercalate rest := by
  rw [matched, components]
  split
  · constructor
    · rintro ⟨⟩
      exact ⟨_, rfl, (intercalate_splitOn _).symm⟩
    · rintro ⟨rest, hrest, rfl⟩
      rw [← nil_append rest, ← hrest, intercalate_splitOn]
  · exact below_eq_some_iff

lemma prefix_of_components {first second : Path} (h : components first <+: components second) :
    first <+: second := by
  unfold components at h
  split at h
  · next hnil => exact hnil ▸ nil_prefix
  · split at h
    · exact absurd (prefix_nil.mp h) (splitOn_ne_nil _ _)
    · obtain ⟨rest, hrest⟩ := h
      have hbelow := below_eq_some_iff.mpr ⟨rest, hrest.symm, rfl⟩
      rw [below] at hbelow
      split at hbelow
      · next hprefix => exact isPrefixOf_iff_prefix.mp hprefix
      · cases hbelow

end

variable {fs : Type u} {mounts : List (MountEntry fs)} {trimmed path : Path}

def point (mount : MountEntry fs) : Path := stripSlash mount.mountPoint

/-- What one round does: a longer match takes the place of what was found so far. -/
lemma betterMount_cases (best : Option (Nat × Nat × Path)) (m : MountEntry fs × Nat) :
    (betterMount trimmed best m = best ∧ ∀ relative ∈ matched (point m.1) trimmed,
      ∃ r ∈ best, (point m.1).length ≤ r.2.1) ∨ ∃ relative ∈ matched (point m.1) trimmed,
      betterMount trimmed best m = some (m.2, (point m.1).length, relative) ∧
      ∀ r ∈ best, r.2.1 < (point m.1).length := by
  rw [betterMount, matched, point]
  by_cases hnil : stripSlash m.1.mountPoint = []
  · cases best <;> simp [hnil]
  · simp only [if_neg hnil]
    cases below (stripSlash m.1.mountPoint) trimmed with
    | none => simp
    | some relative =>
      cases best with
      | none => simp
      | some r =>
        by_cases hlt : r.2.1 < (stripSlash m.1.mountPoint).length
        · simp [hlt]
        · simp [hlt, not_lt.mp hlt]

/-- The best mount among those seen. -/
structure Best (trimmed : Path) (seen : List (MountEntry fs × Nat))
    (best : Option (Nat × Nat × Path)) : Prop where
  found : ∀ r ∈ best, ∃ mount, (mount, r.1) ∈ seen ∧
    matched (point mount) trimmed = some r.2.2 ∧ (point mount).length = r.2.1
  longest : ∀ m ∈ seen, ∀ relative ∈ matched (point m.1) trimmed,
    ∃ r ∈ best, (point m.1).length ≤ r.2.1

lemma Best.step {seen : List (MountEntry fs × Nat)} {best : Option (Nat × Nat × Path)}
    (h : Best trimmed seen best) (m : MountEntry fs × Nat) :
    Best trimmed (seen ++ [m]) (betterMount trimmed best m) := by
  obtain ⟨heq, hcovered⟩ | ⟨relative, hm, heq, hlonger⟩ := betterMount_cases best m
  · rw [heq]
    refine ⟨fun r hr => ?_, fun other hother => ?_⟩
    · obtain ⟨mount, hmem, hfound⟩ := h.found r hr
      exact ⟨mount, mem_append_left _ hmem, hfound⟩
    · obtain hseen | rfl : other ∈ seen ∨ other = m := by simpa using hother
      · exact h.longest other hseen
      · exact hcovered
  · rw [heq]
    refine ⟨?_, fun other hother relative' hmatched => ⟨_, rfl, ?_⟩⟩
    · rintro r ⟨⟩
      exact ⟨m.1, by simp, hm, rfl⟩
    · obtain hseen | rfl : other ∈ seen ∨ other = m := by simpa using hother
      · obtain ⟨r, hr, hle⟩ := h.longest other hseen relative' hmatched
        exact hle.trans (hlonger r hr).le
      · exact le_rfl

lemma Best.foldl {seen rest : List (MountEntry fs × Nat)} {best : Option (Nat × Nat × Path)}
    (h : Best trimmed seen best) :
    Best trimmed (seen ++ rest) (rest.foldl (betterMount trimmed) best) := by
  induction rest generalizing seen best with
  | nil => simpa using h
  | cons m rest ih => simpa using ih (h.step m)

/-- The mount whose mount point is the longest sequence of leading components of the path. -/
@[mk_iff]
structure Longest (mounts : List (MountEntry fs)) (path : Path) (mount : MountEntry fs) :
    Prop where
  mem : mount ∈ mounts
  leading : components (point mount) <+: (stripSlash path).splitOn '/'
  longest : ∀ other ∈ mounts, components (point other) <+: (stripSlash path).splitOn '/' →
    (components (point other)).length ≤ (components (point mount)).length

/-- The components after those of the mount point. -/
def remaining (path : Path) (mount : MountEntry fs) : Path :=
  ['/'].intercalate (((stripSlash path).splitOn '/').drop (components (point mount)).length)

lemma Longest.unique {first second : MountEntry fs}
    (hdistinct : (mounts.map point).Nodup) (hfirst : Longest mounts path first)
    (hsecond : Longest mounts path second) : first = second := by
  have hle := prefix_of_prefix_length_le hfirst.leading hsecond.leading
    (hsecond.longest first hfirst.mem hfirst.leading)
  have hge := prefix_of_prefix_length_le hsecond.leading hfirst.leading
    (hfirst.longest second hsecond.mem hsecond.leading)
  have hlength := (prefix_of_components hge).length_le
  exact inj_on_of_nodup_map hdistinct hfirst.mem hsecond.mem
    ((prefix_of_components hle).eq_of_length_le hlength)

/-- The search ends with the longest sequence of components, or there is no match at all. -/
lemma resolvePathLocked_cases (s : VfsState fs) (hpath : path ≠ []) :
    ((∀ m ∈ s.mounts, ¬components (point m) <+: (stripSlash path).splitOn '/') ∧
      s.resolvePathLocked path = .error .notFound) ∨
    ∃ mountId mount, s.mounts[mountId]? = some mount ∧ Longest s.mounts path mount ∧
      s.resolvePathLocked path = .ok (mountId, remaining path mount) := by
  have hbest : Best (stripSlash path) s.mounts.zipIdx
      (s.mounts.zipIdx.foldl (betterMount (stripSlash path)) none) := by
    have hnone : Best (stripSlash path) ([] : List (MountEntry fs × Nat)) none := ⟨by simp, by simp⟩
    exact hnone.foldl
  -- A mount that matches is one of those searched.
  have hfind : ∀ m ∈ s.mounts, components (point m) <+: (stripSlash path).splitOn '/' →
      ∃ r ∈ s.mounts.zipIdx.foldl (betterMount (stripSlash path)) none,
        (point m).length ≤ r.2.1 := by
    rintro m hm ⟨rest, hrest⟩
    obtain ⟨i, hi⟩ := mem_iff_getElem?.mp hm
    exact hbest.longest (m, i) (mem_zipIdx_iff_getElem?.mpr hi) _
      (matched_eq_some_iff.mpr ⟨rest, hrest.symm, rfl⟩)
  rw [resolvePathLocked, if_neg hpath]
  cases hresult : s.mounts.zipIdx.foldl (betterMount (stripSlash path)) none with
  | none =>
    refine .inl ⟨fun m hm hprefix => ?_, rfl⟩
    obtain ⟨r, hr, -⟩ := hfind m hm hprefix
    rw [hresult] at hr
    cases hr
  | some r =>
    obtain ⟨mount, hmem, hmatched, hlength⟩ := hbest.found r hresult
    have hmount := mem_zipIdx_iff_getElem?.mp hmem
    obtain ⟨rest, hrest, hrelative⟩ := matched_eq_some_iff.mp hmatched
    refine .inr ⟨r.1, mount, hmount, ⟨mem_of_getElem? hmount, ⟨rest, hrest.symm⟩, ?_⟩, ?_⟩
    · intro other hother hprefix
      obtain ⟨r', hr', hle⟩ := hfind other hother hprefix
      cases hresult.symm.trans hr'
      rcases prefix_or_prefix_of_prefix hprefix ⟨rest, hrest.symm⟩ with h | h
      · exact h.length_le
      · have heq := (prefix_of_components h).eq_of_length_le (hle.trans hlength.ge)
        rw [heq]
    · rw [remaining, hrest, drop_left, ← hrelative]

/-- The mount that a path leads to and the path on it. -/
def selected (s : VfsState fs) (path : Path) : Option (MountEntry fs × Path) :=
  (s.resolvePathLocked path).toOption.bind fun (mountId, relative) =>
    s.mounts[mountId]?.map (·, relative)

def SelectsLongest (s : VfsState fs) (path : Path) : Prop :=
  ∀ mount relative, s.selected path = some (mount, relative) ↔
    Longest s.mounts path mount ∧ relative = remaining path mount

lemma selectsLongest (s : VfsState fs) (hpath : path ≠ [])
    (hdistinct : (s.mounts.map point).Nodup) : s.SelectsLongest path := by
  intro mount relative
  obtain ⟨hnone, herror⟩ | ⟨mountId, found, hfound, hlongest, hok⟩ :=
    s.resolvePathLocked_cases hpath
  · rw [selected, herror]
    exact iff_of_false (by simp [Except.toOption]) fun h => hnone mount h.1.mem h.1.leading
  · simp only [selected, hok, Except.toOption, bind_some, hfound, map_some,
      some.injEq, Prod.mk.injEq]
    constructor
    · rintro ⟨rfl, rfl⟩
      exact ⟨hlongest, rfl⟩
    · rintro ⟨hmount, rfl⟩
      cases hlongest.unique hdistinct hmount
      exact ⟨rfl, rfl⟩

/-- With mount points that differ, the mount with the longest sequence of leading components is
selected, in whatever order the mounts were registered; the call fails just when none matches. -/
theorem resolvePathLocked_longest (s : VfsState fs) (hpath : path ≠ [])
    (hdistinct : (s.mounts.map point).Nodup) :
    s.SelectsLongest path ∧ ((∃ e, s.resolvePathLocked path = .error e) ↔
      ∀ m ∈ s.mounts, ¬ components (point m) <+: (stripSlash path).splitOn '/') ∧
    ∀ t : VfsState fs, t.mounts.Perm s.mounts → t.selected path = s.selected path := by
  refine ⟨s.selectsLongest hpath hdistinct, ?_, fun t hperm => ?_⟩
  · obtain ⟨hnone, herror⟩ | ⟨mountId, mount, -, hlongest, hok⟩ := s.resolvePathLocked_cases hpath
    · exact iff_of_true ⟨_, herror⟩ hnone
    · refine iff_of_false (fun ⟨e, he⟩ => ?_) fun h => h mount hlongest.mem hlongest.leading
      cases hok.symm.trans he
  · have hdistinct' := (hperm.map point).nodup_iff.mpr hdistinct
    have hsame : ∀ mount, Longest t.mounts path mount ↔ Longest s.mounts path mount := by
      simp [longest_iff, hperm.mem_iff]
    refine Option.ext fun result => ?_
    rw [t.selectsLongest hpath hdistinct', s.selectsLongest hpath hdistinct, hsame]

def rootAndData : VfsState Unit := ⟨[⟨['/'], ()⟩, ⟨['/', 'd'], ()⟩], .new⟩

theorem resolvePathLocked_longest_root : (rootAndData.mounts.map point).Nodup ∧
    ¬ ∃ e, rootAndData.resolvePathLocked ['d', 'x'] = .error e := by
  have hdistinct : (rootAndData.mounts.map point).Nodup := by decide
  refine ⟨hdistinct, fun herror => ?_⟩
  have hnone := (resolvePathLocked_longest rootAndData (by decide) hdistinct).2.1.mp herror
  exact hnone _ (.head _) nil_prefix

end KarteOs.Driver.VfsState
