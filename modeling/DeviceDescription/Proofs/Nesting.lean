import DeviceDescription.Proofs.DepthLimit
import Mathlib.Data.Finset.Card

/-!
# How deep includes nest

Of the files being expanded no two have the same key, so there are never more of them than there
are keys of files that open, however far off the depth limit is. Each include that is entered uses
up one of these keys. It is this, and not the limit, that ends the recursion: with as many levels
as there are keys it comes to the same expansion as with any number more.
-/

namespace DeviceDescription

def Disk.Opens (disk : Disk) (path : String) : Prop :=
  ∃ contents, (disk.look path).contents = .ok contents

/-- The keys of the paths that open are just these. -/
def Disk.IsOpenKeys (disk : Disk) (keys : Finset String) : Prop :=
  ∀ key, key ∈ keys ↔ ∃ path, disk.Opens path ∧ disk.key path = key

/-- The files that are being expanded at some moment, the innermost first: the root, and below it
files that have been opened for an include. -/
inductive ActiveChain (disk : Disk) (limit : Nat) (root : String) : List String → Prop
  | root : disk.Opens root → ActiveChain disk limit root [root]
  | enter {before file above number text path rest} :
      Reached disk limit root before file above number (Utf8.encode text :: rest) →
      tokenize text = .ok [includeWord, path] → disk.key path ∉ (file :: above).map disk.key →
      (file :: above).length ≤ limit → disk.Opens path →
      ActiveChain disk limit root (path :: file :: above)

/-- A file that opens is entered below those that are being expanded. There is no limit to this but
that its key must be new. -/
inductive Disk.Enters (disk : Disk) : List String → List String → Prop
  | intro {chain path} : disk.key path ∉ chain.map disk.key → disk.Opens path →
      disk.Enters chain (path :: chain)

/-- How many of the keys are left when those in `active` are taken. -/
def unused (keys : Finset String) (active : List String) : Nat := (keys \ active.toFinset).card

/-- The expansion of a root file in a recursion of at most so many levels. -/
def expandWithin (disk : Disk) (limit levels : Nat) (root : String) : Expansion :=
  expandFile disk (expandInclude disk limit levels [disk.key root]) none root

theorem expandWithin_limit (disk : Disk) (limit : Nat) (root : String) :
    expandWithin disk limit limit root = expand disk limit root := rfl

/-! ### Chains -/

section Chain

variable {disk : Disk} {limit : Nat} {root : String} {chain : List String}

theorem Disk.Holds.opens {path : String} {data : List UInt8} (h : disk.Holds path data) :
    disk.Opens path := ⟨_, h⟩

theorem Reached.activeChain {before : List Line} {file : String} {above : List String}
    {number : Nat} {rest : List (List UInt8)}
    (h : Reached disk limit root before file above number rest) :
    ActiveChain disk limit root (file :: above) := by
  induction h with
  | root hholds => exact .root hholds.opens
  | plain _ _ _ ih => exact ih
  | enter h ht ha _ => exact .enter h ht ha.fresh ha.shallow ha.holds.opens
  | leave _ _ _ _ ih => exact ih

theorem ActiveChain.nodup (h : ActiveChain disk limit root chain) :
    (chain.map disk.key).Nodup := by
  cases h with
  | root => exact List.nodup_singleton _
  | enter h _ hfresh => exact List.nodup_cons.mpr ⟨hfresh, h.nodup⟩

theorem ActiveChain.opens (h : ActiveChain disk limit root chain) :
    ∀ path ∈ chain, disk.Opens path := by
  cases h with
  | root hopens => exact List.forall_mem_singleton.mpr hopens
  | enter h _ _ _ hopens =>
    refine List.forall_mem_cons.mpr ⟨hopens, ?_⟩
    intro path hpath
    obtain ⟨data, hholds⟩ := h.exists_holds path hpath
    exact hholds.opens

variable {keys : Finset String} (hkeys : disk.IsOpenKeys keys)
include hkeys

theorem Disk.IsOpenKeys.key_mem {path : String} (h : disk.Opens path) : disk.key path ∈ keys :=
  (hkeys _).mpr ⟨path, h, rfl⟩

theorem ActiveChain.length_le (h : ActiveChain disk limit root chain) :
    chain.length ≤ keys.card := by
  have hsubset : (chain.map disk.key).toFinset ⊆ keys := by
    intro key hkey
    obtain ⟨path, hpath, rfl⟩ := List.mem_map.mp (List.mem_toFinset.mp hkey)
    exact hkeys.key_mem (h.opens path hpath)
  calc chain.length = (chain.map disk.key).length := (List.length_map _).symm
    _ = (chain.map disk.key).toFinset.card := (List.toFinset_card_of_nodup h.nodup).symm
    _ ≤ keys.card := Finset.card_le_card hsubset

end Chain

/-! ### Keys that are left -/

theorem unused_cons_lt {keys : Finset String} {active : List String} {key : String}
    (hkey : key ∈ keys) (hfresh : key ∉ active) : unused keys (key :: active) < unused keys active := by
  have hleft : key ∈ keys \ active.toFinset :=
    Finset.mem_sdiff.mpr ⟨hkey, fun h => hfresh (List.mem_toFinset.mp h)⟩
  rw [unused, List.toFinset_cons, Finset.sdiff_insert]
  exact Finset.card_erase_lt_of_mem hleft

section Levels

variable {disk : Disk} {keys : Finset String} (hkeys : disk.IsOpenKeys keys)
include hkeys

theorem Disk.Enters.unused_lt {chain inner : List String} (h : disk.Enters chain inner) :
    unused keys (inner.map disk.key) < unused keys (chain.map disk.key) := by
  cases h with
  | intro hfresh hopens => exact unused_cons_lt (hkeys.key_mem hopens) hfresh

theorem Disk.IsOpenKeys.wellFounded_enters :
    WellFounded fun inner chain => disk.Enters chain inner :=
  Subrelation.wf (Disk.Enters.unused_lt hkeys)
    (measure fun chain : List String => unused keys (chain.map disk.key)).wf

/-- Levels beyond the keys that are left make no difference. -/
theorem expandInclude_of_unused_lt {limit levels levels' : Nat} {active : List String}
    (h : unused keys active < levels) (h' : unused keys active < levels') (site : Line)
    (path : String) :
    expandInclude disk limit levels active site path =
      expandInclude disk limit levels' active site path := by
  induction levels generalizing levels' active site path with
  | zero => omega
  | succ levels ih =>
    obtain ⟨more, rfl⟩ : ∃ more, levels' = more + 1 := ⟨levels' - 1, by omega⟩
    by_cases hkey : disk.key path ∈ active
    · rw [expandInclude_of_cycle _ _ hkey, expandInclude_of_cycle _ _ hkey]
    · rw [expandInclude, expandInclude, if_neg hkey, if_neg hkey]
      cases hc : (disk.look path).contents with
      | error obstacle => rw [expandFile, expandFile, hc]
      | ok contents =>
        have hless := unused_cons_lt (hkeys.key_mem ⟨contents, hc⟩) hkey
        have hsame : expandInclude disk limit levels (disk.key path :: active) =
            expandInclude disk limit more (disk.key path :: active) := by
          funext site' path'
          exact ih (by omega) (by omega) site' path'
        rw [hsame]

theorem expandWithin_eq (limit : Nat) (root : String) :
    expandWithin disk limit (min limit keys.card) root = expand disk limit root := by
  by_cases hle : limit ≤ keys.card
  · rw [Nat.min_eq_left hle, expandWithin_limit]
  · rw [Nat.min_eq_right (by omega), ← expandWithin_limit, expandWithin, expandWithin]
    cases hc : (disk.look root).contents with
    | error obstacle => rw [expandFile, expandFile, hc]
    | ok contents =>
      -- The root takes the first key.
      have hless := unused_cons_lt (hkeys.key_mem ⟨contents, hc⟩) List.not_mem_nil
      have hall : unused keys [] = keys.card := by simp [unused]
      have hsame : expandInclude disk limit keys.card [disk.key root] =
          expandInclude disk limit limit [disk.key root] := by
        funext site path
        exact expandInclude_of_unused_lt hkeys (by omega) (by omega) site path
      rw [hsame]

theorem expand_not_tooDeep {limit : Nat} (hle : keys.card ≤ limit) (root : String) :
    ¬ (expand disk limit root).TooDeep := by
  rintro ⟨stop, hstop, hdeep⟩
  obtain ⟨before, line, path, -, -, hstopped⟩ := stoppedByLimit_of_stop hstop hdeep
  obtain ⟨above, rest, h, ⟨includes, hchain, hlength⟩, -⟩ := hstopped.active
  have hbound := h.activeChain.length_le hkeys
  rw [hchain, List.length_append, List.length_singleton] at hbound
  omega

/-- Let there be just the keys `keys` of files that open. Whatever the depth limit, a load comes to
its end in a recursion of no more levels than there are keys, as no descent from include to include
is endless. No more files than that are ever being expanded at once, all with different keys; and if
the limit allows that many, no include is too deep. -/
theorem load_nesting_le (s : Session) (root : String) :
    WellFounded (fun inner chain => disk.Enters chain inner) ∧
      expandWithin disk s.settings.depthLimit.toNat (min s.settings.depthLimit.toNat keys.card) root =
        expand disk s.settings.depthLimit.toNat root ∧
      (∀ chain, ActiveChain disk s.settings.depthLimit.toNat root chain →
        chain.length ≤ keys.card ∧ (chain.map disk.key).Nodup) ∧
      (keys.card ≤ s.settings.depthLimit.toNat →
        ∀ d, (s.load disk root).1 = .error d → ¬ d.fault.IsTooDeep) := by
  refine ⟨hkeys.wellFounded_enters, expandWithin_eq hkeys _ root, ?_, ?_⟩
  · intro chain h
    exact ⟨h.length_le hkeys, h.nodup⟩
  · intro hle d hload hdeep
    exact expand_not_tooDeep hkeys hle root ⟨_, s.exists_stop_of_load disk root hload, hdeep⟩

end Levels

/-! ### Disks that hold texts -/

section Texts

variable (texts : List (String × String)) (path : String)

theorem Disk.ofTexts_key : (ofTexts texts).key path = path := by
  rw [key, ofTexts]
  dsimp only
  cases texts.lookup path <;> rfl

theorem Disk.ofTexts_opens_iff : (ofTexts texts).Opens path ↔ path ∈ texts.map Prod.fst := by
  have hmem : path ∈ texts.map Prod.fst ↔ (texts.lookup path).isSome := by
    rw [List.lookup_isSome_iff, List.mem_map]
    refine exists_congr fun entry => and_congr_right fun _ => ?_
    rw [beq_iff_eq, eq_comm]
  rw [hmem, Opens, ofTexts]
  dsimp only
  cases texts.lookup path <;> simp

theorem Disk.ofTexts_isOpenKeys : (ofTexts texts).IsOpenKeys (texts.map Prod.fst).toFinset := by
  intro key
  simp only [ofTexts_key, ofTexts_opens_iff, exists_eq_right, List.mem_toFinset]

end Texts

/-- Two arms that mount each other. -/
def mirrored : Disk :=
  .ofTexts [("left.dd", "include right.dd"), ("right.dd", "bus can0\ninclude left.dd")]

def mirroredCycle : Diagnostic :=
  ⟨.inclusionCycle "left.dd", some ⟨"right.dd", 2, "include left.dd"⟩,
    "inclusion cycle: left.dd is already being loaded"⟩

theorem mirrored_activeChain (limit : Nat) (hlimit : 1 ≤ limit) :
    ActiveChain mirrored limit "left.dd" ["right.dd", "left.dd"] := by
  have hleft : mirrored.Holds "left.dd" (Utf8.encode "include right.dd") := rfl
  have hline : fileLines (Utf8.encode "include right.dd") = [Utf8.encode "include right.dd"] := by
    decide +kernel
  have hroot : Reached mirrored limit "left.dd" [] "left.dd" [] 1
      (fileLines (Utf8.encode "include right.dd")) := .root hleft
  rw [hline] at hroot
  exact .enter hroot (by decide +kernel) (by decide +kernel) hlimit ⟨_, rfl⟩

/-- The two arms fill the bound, and no limit is needed to find the cycle. -/
theorem load_mirrored :
    mirrored.IsOpenKeys {"left.dd", "right.dd"} ∧
      ((Session.new { depthLimit := 0xffffffffffffffff }).load mirrored "left.dd").1 =
        .error mirroredCycle ∧
      ¬ mirroredCycle.fault.IsTooDeep ∧
      expandWithin mirrored 0xffffffffffffffff 2 "left.dd" =
        expand mirrored 0xffffffffffffffff "left.dd" ∧
      ActiveChain mirrored 0xffffffffffffffff "left.dd" ["right.dd", "left.dd"] ∧
      ["right.dd", "left.dd"].length = ({"left.dd", "right.dd"} : Finset String).card ∧
      (["right.dd", "left.dd"].map mirrored.key).Nodup := by
  have hkeys : mirrored.IsOpenKeys {"left.dd", "right.dd"} := Disk.ofTexts_isOpenKeys _
  have hload : ((Session.new { depthLimit := 0xffffffffffffffff }).load mirrored "left.dd").1 =
      .error mirroredCycle := by decide +kernel
  have hchain := mirrored_activeChain 0xffffffffffffffff (by decide)
  obtain ⟨-, hwithin, hchains, hdeep⟩ :=
    load_nesting_le hkeys (.new { depthLimit := 0xffffffffffffffff }) "left.dd"
  exact ⟨hkeys, hload, hdeep (by decide +kernel) _ hload, hwithin, hchain, by decide,
    (hchains _ hchain).2⟩

end DeviceDescription
