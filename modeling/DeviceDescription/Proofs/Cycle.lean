import DeviceDescription.Proofs.Reach

/-!
# Inclusion cycles

On a disk where every path that opens has a canonical spelling, and canonical spellings are their
own, an include is refused as a cycle exactly if its path leads to a file that is being expanded.
So what a load accepts has no include cycle, and what it refuses as one is one: `Disk.Includes` is
the include relation between paths as they are written, and `Disk.SameFile` tells when two of them
lead to one file.
-/

namespace DeviceDescription

open Relation

/-- Every path that opens has a canonical spelling, which is its own canonical spelling. Canonical
paths that are not Unicode fall outside, since their texts, with U+FFFD in them, are other paths;
only where such a text is itself the canonical path of a file does a disk with them count, and
`Disk.SameFile` takes the two files for one. -/
structure Disk.Canonical (disk : Disk) : Prop where
  opened : ∀ path contents, (disk.look path).contents = .ok contents →
    ∃ name, (disk.look path).identity = some name
  idempotent : ∀ path name, (disk.look path).identity = some name →
    (disk.look name).identity = some name

/-- Two paths have one canonical spelling. -/
def Disk.SameFile (disk : Disk) (p q : String) : Prop :=
  ∃ name, (disk.look p).identity = some name ∧ (disk.look q).identity = some name

/-- The file at `file` has an include line for `path`. -/
def Disk.Includes (disk : Disk) (file path : String) : Prop :=
  ∃ data text, disk.Holds file data ∧ Utf8.encode text ∈ fileLines data ∧
    tokenize text = .ok [includeWord, path]

namespace Disk

variable {disk : Disk}

theorem SameFile.key_eq {p q : String} (h : disk.SameFile p q) : disk.key p = disk.key q := by
  obtain ⟨name, hp, hq⟩ := h
  rw [key, key, hp, hq, Option.getD_some, Option.getD_some]

theorem Canonical.key_eq_iff (hdisk : disk.Canonical) {p q : String} {data : List UInt8}
    (hp : disk.Holds p data) : disk.key q = disk.key p ↔ disk.SameFile p q := by
  refine ⟨?_, fun h => h.key_eq.symm⟩
  intro h
  obtain ⟨name, hname⟩ := hdisk.opened p _ hp
  have hkey : disk.key p = name := by rw [key, hname, Option.getD_some]
  rw [hkey] at h
  cases hq : (disk.look q).identity with
  | some name' =>
    obtain rfl : name' = name := by rw [key, hq, Option.getD_some] at h; exact h
    exact ⟨name', hname, hq⟩
  | none =>
    -- `q` is spelled like the file of `p`, so it leads there after all.
    obtain rfl : q = name := by rw [key, hq, Option.getD_none] at h; exact h
    rw [hdisk.idempotent p q hname] at hq
    cases hq

theorem Canonical.key_mem_iff (hdisk : disk.Canonical) {chain : List String} {path : String}
    (hchain : ∀ p ∈ chain, ∃ data, disk.Holds p data) :
    disk.key path ∈ chain.map disk.key ↔ ∃ p ∈ chain, disk.SameFile p path := by
  rw [List.mem_map]
  apply exists_congr
  intro p
  refine and_congr_right fun hp => ?_
  obtain ⟨data, hdata⟩ := hchain p hp
  rw [← hdisk.key_eq_iff hdata]
  exact eq_comm

end Disk

theorem lineTarget_ne_cycle (file path : String) (bytes : List UInt8) :
    lineTarget file bytes ≠ .error (.inclusionCycle path) := by
  intro h
  rcases lineTarget_eq_error_iff.mp h with ⟨_, -, hf⟩ | ⟨_, -, ⟨e, -, hf⟩ | ⟨_, -, hf⟩⟩
  · cases hf
  · cases e <;> cases hf
  · rcases includeTarget_eq_error_iff.mp hf with ⟨-, hf⟩ | ⟨_, _, _, -, hf⟩ <;> cases hf

section Line

variable {disk : Disk} {limit : Nat} {file : String} {above : List String} {number : Nat}

theorem exists_include_of_faulty {bytes : List UInt8} {path : String} {site : Option Line}
    (h : Faulty disk limit file above number bytes ⟨.inclusionCycle path, site⟩) :
    ∃ text, bytes = Utf8.encode text ∧ tokenize text = .ok [includeWord, path] ∧
      disk.key path ∈ (file :: above).map disk.key := by
  generalize hstop : (⟨.inclusionCycle path, site⟩ : Stop) = stop at h
  cases h with
  | malformed he =>
    obtain ⟨rfl, -⟩ := Stop.mk.inj hstop
    exact absurd he (lineTarget_ne_cycle file path bytes)
  | refused he hr =>
    obtain ⟨text, tokens, rfl, htok, hsome⟩ := exists_tokens_of_lineTarget he
    obtain rfl := includeTarget_eq_some_iff.mp hsome
    cases hr with
    | cycle hkey =>
      obtain ⟨hfault, -⟩ := Stop.mk.inj hstop
      obtain rfl := Fault.inclusionCycle.inj hfault
      exact ⟨text, rfl, htok, hkey⟩
    | deep => cases hstop
    | closed => cases hstop
    | unreadable => cases hstop

theorem faulty_cycle_iff {text path : String} (ht : tokenize text = .ok [includeWord, path]) :
    Faulty disk limit file above number (Utf8.encode text)
        ⟨.inclusionCycle path, some ⟨file, number, text⟩⟩ ↔
      disk.key path ∈ (file :: above).map disk.key := by
  constructor
  · intro h
    obtain ⟨_, -, -, hkey⟩ := exists_include_of_faulty h
    exact hkey
  · intro hkey
    refine .refused (lineTarget_include file ht) ?_
    rw [Utf8.decodeLossy_encode]
    exact .cycle hkey

end Line

namespace Reached

variable {disk : Disk} {limit : Nat} {root : String} {before : List Line} {file : String}
  {above : List String} {number : Nat} {rest : List (List UInt8)}

theorem includes {text path : String}
    (h : Reached disk limit root before file above number (Utf8.encode text :: rest))
    (ht : tokenize text = .ok [includeWord, path]) : disk.Includes file path := by
  obtain ⟨data, hholds, hs⟩ := h.suffix
  exact ⟨data, text, hholds, hs.subset List.mem_cons_self, ht⟩

theorem chain (h : Reached disk limit root before file above number rest) :
    ∀ p ∈ file :: above, ReflTransGen disk.Includes root p ∧ ReflTransGen disk.Includes p file := by
  induction h with
  | root =>
    intro p hp
    obtain rfl := List.mem_singleton.mp hp
    exact ⟨.refl, .refl⟩
  | plain _ _ _ ih => exact ih
  | leave _ _ _ _ ih => exact ih
  | enter h ht _ ih =>
    have hstep := h.includes ht
    intro p hp
    rcases List.mem_cons.mp hp with rfl | hp
    · exact ⟨(ih _ List.mem_cons_self).1.tail hstep, .refl⟩
    · obtain ⟨hroot, hfile⟩ := ih p hp
      exact ⟨hroot, hfile.tail hstep⟩

/-- An expansion that is not stopped comes to every file that a file it comes to includes. -/
theorem enter_of_includes {data : List UInt8} {path : String}
    (h : Reached disk limit root before file above 1 (fileLines data))
    (hdone : (expand disk limit root).stop = none) (hholds : disk.Holds file data)
    (hinc : disk.Includes file path) :
    ∃ before' data', disk.Holds path data' ∧
      Reached disk limit root before' path (file :: above) 1 (fileLines data') := by
  obtain ⟨data', text, hholds', hmem, ht⟩ := hinc
  obtain rfl := hholds.unique hholds'
  obtain ⟨before', number, rest, hline⟩ := h.mem hdone hmem
  rcases disk.admits_or_refuses limit (file :: above)
    ⟨file, number, Utf8.decodeLossy (Utf8.encode text)⟩ path with ⟨data', ha⟩ | ⟨stop, hr⟩
  · exact ⟨_, data', ha.holds, .enter hline ht ha⟩
  · have hf : Faulty disk limit file above number (Utf8.encode text) stop :=
      .refused (lineTarget_include file ht) hr
    rw [((hline.stops_iff stop).mpr hf).1] at hdone
    cases hdone

theorem enter_of_reflTransGen {data : List UInt8} {path : String}
    (h : Reached disk limit root before file above 1 (fileLines data))
    (hdone : (expand disk limit root).stop = none) (hholds : disk.Holds file data)
    (hway : ReflTransGen disk.Includes file path) :
    ∃ before' above' data', disk.Holds path data' ∧ file :: above <:+ path :: above' ∧
      Reached disk limit root before' path above' 1 (fileLines data') := by
  induction hway with
  | refl => exact ⟨before, above, data, hholds, List.suffix_rfl, h⟩
  | tail _ hstep ih =>
    obtain ⟨before', above', data', hholds', hs, h'⟩ := ih
    obtain ⟨before'', data'', hholds'', h''⟩ := h'.enter_of_includes hdone hholds' hstep
    exact ⟨before'', _, data'', hholds'', hs.trans (List.suffix_cons _ _), h''⟩

end Reached

section Disk

variable {disk : Disk} {limit : Nat} {root : String}

/-- The include relation below the root of an expansion that is not stopped has no cycle. -/
theorem not_sameFile_of_complete (hdone : (expand disk limit root).stop = none) {p q : String}
    (hp : ReflTransGen disk.Includes root p) (hq : TransGen disk.Includes p q) :
    ¬ disk.SameFile p q := by
  obtain ⟨data, hholds, -⟩ := expands_of_expand hdone
  obtain ⟨before, above, data, hp', -, h⟩ :=
    (Reached.root hholds).enter_of_reflTransGen hdone hholds hp
  obtain ⟨m, hm, hmq⟩ := TransGen.tail'_iff.mp hq
  obtain ⟨before', above', data', hm', hs, h'⟩ := h.enter_of_reflTransGen hdone hp' hm
  obtain ⟨before'', data'', -, h''⟩ := h'.enter_of_includes hdone hm' hmq
  intro hsame
  have hfresh : disk.key q ∉ (m :: above').map disk.key := (List.nodup_cons.mp h''.nodup).1
  apply hfresh
  rw [← hsame.key_eq]
  exact List.mem_map_of_mem (hs.subset List.mem_cons_self)

variable (hdisk : disk.Canonical)
include hdisk

theorem Reached.cycle_iff {before : List Line} {file : String} {above : List String} {number : Nat}
    {text path : String} {rest : List (List UInt8)}
    (h : Reached disk limit root before file above number (Utf8.encode text :: rest))
    (ht : tokenize text = .ok [includeWord, path]) :
    ((expand disk limit root).stop = some ⟨.inclusionCycle path, some ⟨file, number, text⟩⟩ ∧
        (expand disk limit root).lines = before ++ [⟨file, number, text⟩]) ↔
      ∃ p ∈ file :: above, disk.SameFile p path := by
  have hstops := h.stops_iff ⟨.inclusionCycle path, some ⟨file, number, text⟩⟩
  rw [Utf8.decodeLossy_encode] at hstops
  rw [hstops, faulty_cycle_iff ht, hdisk.key_mem_iff h.exists_holds]

theorem exists_cycle_of_stop {path : String} {site : Option Line}
    (h : (expand disk limit root).stop = some ⟨.inclusionCycle path, site⟩) :
    ∃ p, ReflTransGen disk.Includes root p ∧ TransGen disk.Includes p path ∧
      disk.SameFile p path := by
  rcases expand_stop h with ⟨_, hstop⟩ | ⟨_, hstop⟩ | ⟨before, file, above, number, bytes, rest, hr, hf⟩
  · cases hstop
  · cases hstop
  · obtain ⟨text, rfl, ht, hkey⟩ := exists_include_of_faulty hf
    obtain ⟨p, hp, hsame⟩ := (hdisk.key_mem_iff hr.exists_holds).mp hkey
    obtain ⟨hroot, hfile⟩ := hr.chain p hp
    exact ⟨p, hroot, .tail' hfile (hr.includes ht), hsame⟩

end Disk

/-- A disk with the files `texts`, which the paths `names` lead to. -/
def Disk.ofNames (names texts : List (String × String)) : Disk :=
  ⟨fun path =>
    match names.lookup path with
    | none => ⟨none, .error .notFound⟩
    | some name =>
      match texts.lookup name with
      | none => ⟨some name, .error .isDirectory⟩
      | some text => ⟨some name, .ok (.bytes (Utf8.encode text))⟩⟩

theorem Disk.ofNames_canonical {names texts : List (String × String)}
    (h : ∀ name ∈ names, names.lookup name.2 = some name.2) : (ofNames names texts).Canonical where
  opened := by
    intro path contents hc
    cases hp : names.lookup path with
    | none => simp [ofNames, hp] at hc
    | some name => exact ⟨name, by simp only [ofNames, hp]; split <;> rfl⟩
  idempotent := by
    intro path name hname
    have hlookup : names.lookup path = some name := by
      cases hp : names.lookup path with
      | none => simp [ofNames, hp] at hname
      | some name' =>
        simp only [ofNames, hp] at hname
        split at hname <;> exact hname
    obtain ⟨before, after, hsplit, -⟩ := List.lookup_eq_some_iff.mp hlookup
    have hself : names.lookup name = some name := h (path, name) (by rw [hsplit]; simp)
    simp only [ofNames, hself]
    split <;> rfl

/-- Two robots that mount each other, one of them by way of a link, and a third that mounts one arm
on either side. -/
def robots : Disk :=
  .ofNames
    [("left.dd", "/r/left.dd"), ("./right.dd", "/r/right.dd"), ("link.dd", "/r/left.dd"),
      ("both.dd", "/r/both.dd"), ("arm.dd", "/r/arm.dd"), ("./arm.dd", "/r/arm.dd"),
      ("/r/left.dd", "/r/left.dd"), ("/r/right.dd", "/r/right.dd"), ("/r/both.dd", "/r/both.dd"),
      ("/r/arm.dd", "/r/arm.dd")]
    [("/r/left.dd", "include ./right.dd"), ("/r/right.dd", "bus can0\ninclude link.dd"),
      ("/r/both.dd", "include arm.dd\ninclude ./arm.dd"), ("/r/arm.dd", "begin motor\nend motor")]

end DeviceDescription
