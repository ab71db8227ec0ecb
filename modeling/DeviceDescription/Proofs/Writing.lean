import DeviceDescription.Disk.Tree

/-!
# Writing to a path

`Leads` says how the names of a path lead to the place of a file, which need not exist yet. A path
that can be written to leads to such a place. The way goes through directories and links only, so it
is still there when the place holds a new file: opening the path gives what has been written to it.
-/

namespace DeviceDescription

/-- A name that stands for an entry of a directory. -/
def IsEntryName (name : String) : Prop :=
  ¬(name = "" ∨ name = ".") ∧ name ≠ ".." ∧ ¬255 < name.utf8ByteSize

/-- The place that is written to at the end of a way. -/
def Arrival.writable? : Arrival → Option Place
  | .file place _ | .vacant place => some place
  | .directory _ => none

namespace FileTree

/-- A file may be written where there is one or nothing. -/
def Replaceable : Option Entry → Prop
  | none | some (.file _) => True
  | some .directory | some (.link _) => False

/-- From a directory the names lead, over at most `links` links, to the place of a file or of
nothing. -/
inductive Leads (tree : FileTree) : Nat → Place → List String → Place → Prop
  | skip {links here name rest place} : name = "" ∨ name = "." →
      Leads tree links here rest place → Leads tree links here (name :: rest) place
  | up {links here rest place} : Leads tree links here.tail rest place →
      Leads tree links here (".." :: rest) place
  | down {links here name rest place} : IsEntryName name →
      tree.find? (name :: here) = some .directory →
      Leads tree links (name :: here) rest place → Leads tree links here (name :: rest) place
  | link {links here name rest target place} : IsEntryName name →
      tree.find? (name :: here) = some (.link target) →
      Leads tree links (if target.toList.head? = some '/' then [] else here)
        (pathNames target ++ rest) place →
      Leads tree (links + 1) here (name :: rest) place
  | here {links here name} : IsEntryName name → Replaceable (tree.find? (name :: here)) →
      Leads tree links here [name] (name :: here)

variable {tree : FileTree}

theorem leads_of_follow {creating : Bool} {links : Nat} {here place : Place} {names : List String}
    {arrival : Arrival} (h : tree.follow creating links here names = .ok arrival)
    (hplace : arrival.writable? = some place) : tree.Leads links here names place := by
  fun_induction follow tree creating links here names with
  | case1 =>
    obtain rfl := Except.ok.inj h
    cases hplace
  | case2 links here name rest hname ih => exact .skip hname (ih h)
  | case3 links here rest _ ih => exact .up (ih h)
  | case4 | case5 | case7 | case10 | case11 => cases h
  | case6 links here name hname hup hlong hfind =>
    obtain rfl := Except.ok.inj h
    obtain rfl := Option.some.inj hplace
    exact .here ⟨hname, hup, hlong⟩ (by rw [hfind]; trivial)
  | case8 links here name rest hname hup _ hlong hfind ih =>
    exact .down ⟨hname, hup, hlong⟩ hfind (ih h)
  | case9 links here name hname hup hlong data hfind =>
    obtain rfl := Except.ok.inj h
    obtain rfl := Option.some.inj hplace
    exact .here ⟨hname, hup, hlong⟩ (by rw [hfind]; trivial)
  | case12 here name rest hname hup _ hlong target hfind links ih =>
    exact .link ⟨hname, hup, hlong⟩ hfind (ih h)

theorem Leads.replaceable {links : Nat} {here place : Place} {names : List String}
    (h : tree.Leads links here names place) : Replaceable (tree.find? place) := by
  induction h with
  | skip _ _ ih | up _ ih | down _ _ _ ih | link _ _ _ ih => exact ih
  | here _ hfree => exact hfree

/-! ### Entries after an insertion -/

theorem lookup_filter_ne {place other : Place} (h : other ≠ place)
    (entries : List (Place × Entry)) :
    (entries.filter (·.1 != place)).lookup other = entries.lookup other := by
  induction entries with
  | nil => rfl
  | cons entry entries ih =>
    by_cases hplace : entry.1 = place
    · have hother : (other == entry.1) = false := by simp [hplace, h]
      rw [List.filter_cons_of_neg (by simp [hplace]), ih, List.lookup_cons, hother]
    · rw [List.filter_cons_of_pos (by simp [hplace]), List.lookup_cons, List.lookup_cons, ih]

theorem find?_insert_of_ne {place other : Place} (h : other ≠ place) (entry : Entry) :
    (tree.insert place entry).find? other = tree.find? other := by
  have hother : (other == place) = false := by simp [h]
  rw [find?, find?, insert, List.lookup_cons, hother]
  simp only [lookup_filter_ne h]

theorem find?_insert_self {place : Place} (h : place ≠ []) (entry : Entry) :
    (tree.insert place entry).find? place = some entry := by
  simp [find?, insert, h]

/-! ### The way to what has been written -/

section Follow

variable {links : Nat} {here : Place} {name : String} {rest : List String}

theorem follow_skip (h : name = "" ∨ name = ".") :
    tree.follow false links here (name :: rest) = tree.follow false links here rest := by
  rw [follow, if_pos h]

theorem follow_up : tree.follow false links here (".." :: rest) =
    tree.follow false links here.tail rest := by
  rw [follow, if_neg (by simp), if_pos rfl]

theorem follow_down (h : IsEntryName name) (hfind : tree.find? (name :: here) = some .directory) :
    tree.follow false links here (name :: rest) = tree.follow false links (name :: here) rest := by
  rw [follow, if_neg h.1, if_neg h.2.1, if_neg (by simp), if_neg h.2.2, hfind]

theorem follow_link {target : String} (h : IsEntryName name)
    (hfind : tree.find? (name :: here) = some (.link target)) :
    tree.follow false (links + 1) here (name :: rest) =
      tree.follow false links (if target.toList.head? = some '/' then [] else here)
        (pathNames target ++ rest) := by
  rw [follow, if_neg h.1, if_neg h.2.1, if_neg (by simp), if_neg h.2.2, hfind]

theorem follow_here {data : List UInt8} (h : IsEntryName name)
    (hfind : tree.find? (name :: here) = some (.file data)) :
    tree.follow false links here [name] = .ok (.file (name :: here) data) := by
  rw [follow, if_neg h.1, if_neg h.2.1, if_neg (by simp), if_neg h.2.2, hfind]
  rfl

end Follow

theorem ne_of_find? {place other : Place} {entry : Entry} (hplace : Replaceable (tree.find? place))
    (hother : tree.find? other = some entry) (hentry : ¬ Replaceable (some entry)) :
    other ≠ place := by
  rintro rfl
  rw [hother] at hplace
  exact hentry hplace

/-- The names lead to the file that has been inserted where they led. -/
theorem Leads.follow_insert {links : Nat} {here place : Place} {names : List String}
    (h : tree.Leads links here names place) (data : List UInt8) :
    (tree.insert place (.file data)).follow false links here names = .ok (.file place data) := by
  induction h with
  | skip hname _ ih => rw [follow_skip hname, ih]
  | up _ ih => rw [follow_up, ih]
  | down hname hfind hrest ih =>
    have hne := ne_of_find? hrest.replaceable hfind id
    rw [follow_down hname ((find?_insert_of_ne hne _).trans hfind), ih]
  | link hname hfind hrest ih =>
    have hne := ne_of_find? hrest.replaceable hfind id
    rw [follow_link hname ((find?_insert_of_ne hne _).trans hfind), ih]
  | here hname _ => exact follow_here hname (find?_insert_self (List.cons_ne_nil _ _) _)

theorem resolve_insert {path : String} {arrival : Arrival} {place : Place}
    (h : tree.resolve true path = .ok arrival) (hplace : arrival.writable? = some place)
    (data : List UInt8) :
    (tree.insert place (.file data)).resolve false path = .ok (.file place data) := by
  unfold resolve trace at h ⊢
  split at h
  · cases h
  · split at h
    · cases h
    · split at h
      · cases h
      · rw [if_neg (by assumption), if_neg (by assumption), if_neg (by assumption)]
        exact (leads_of_follow h hplace).follow_insert data

/-- What has been written to a path is what opening it gives. -/
theorem openPath_of_write {tree' : FileTree} {path : String} {data : List UInt8}
    (h : tree.write path data = .ok tree') : tree'.openPath path = .ok (.bytes data) := by
  rw [write] at h
  cases harrival : tree.resolve true path with
  | error obstacle =>
    rw [harrival] at h
    cases h
  | ok arrival =>
    rw [harrival] at h
    cases arrival with
    | directory place => cases h
    | file place old =>
      obtain rfl := Except.ok.inj h
      rw [openPath, resolve_insert harrival rfl]
    | vacant place =>
      obtain rfl := Except.ok.inj h
      rw [openPath, resolve_insert harrival rfl]

end FileTree

end DeviceDescription
