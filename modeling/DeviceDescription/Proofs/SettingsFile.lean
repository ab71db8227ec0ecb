import DeviceDescription.Proofs.Fields
import DeviceDescription.Proofs.JsonPrinter
import DeviceDescription.Proofs.Splice
import DeviceDescription.Proofs.Writing
import DeviceDescription.Settings.File

/-!
# Settings files

What settings a file holds is told from the members of the object in it: a field that is named gives
the setting, and one that is not leaves it at its default. Whatever else the object names does not
count. Saved settings are such an object, with all fields, and are found where they were saved.
-/

namespace DeviceDescription

open Json (Field Repeated)

/-! ### Settings in a record -/

/-- A choice is written as its name, or as an object with its name as the only member. -/
inductive SinkChoice.Stands : Json → SinkChoice → Prop
  | name (choice : SinkChoice) : Stands (.text choice.name) choice
  | member (choice : SinkChoice) : Stands (.record [(choice.name, .null)]) choice

def IsFlag (value : Json) (b : Bool) : Prop := value = .bool b

def IsWord (value : Json) (n : UInt64) : Prop := value = .natural n.toNat

/-- The members of a record give a setting, by the value of the field `name` or by its absence. -/
inductive Sets {α : Type} (stands : Json → α → Prop) (default : α) (name : String)
    (members : List (String × Json)) : α → Prop
  | default : Field name members none → Sets stands default name members default
  | given {value a} : Field name members (some value) → stands value a →
      Sets stands default name members a

/-- The field `name` has a value that is of another type. -/
def IllTyped {α : Type} (stands : Json → α → Prop) (name : String)
    (members : List (String × Json)) : Prop :=
  ∃ value, (name, value) ∈ members ∧ ∀ a, ¬ stands value a

namespace Settings

/-- The settings are the default ones but for the fields that the members name. -/
structure Described (members : List (String × Json)) (settings : Settings) : Prop where
  showIncludes : Sets IsFlag ({} : Settings).showIncludes "surface_include_directives" members
    settings.showIncludes
  depthLimit : Sets IsWord ({} : Settings).depthLimit "max_include_depth" members
    settings.depthLimit
  diagnostics : Sets SinkChoice.Stands ({} : Settings).diagnostics "error_sink" members
    settings.diagnostics

/-- The members name a field twice or give it a value of another type. -/
inductive Flawed (members : List (String × Json)) : Prop
  | repeated {name} : name ∈ fieldNames → Repeated name members → Flawed members
  | showIncludes : IllTyped IsFlag "surface_include_directives" members → Flawed members
  | depthLimit : IllTyped IsWord "max_include_depth" members → Flawed members
  | diagnostics : IllTyped SinkChoice.Stands "error_sink" members → Flawed members

end Settings

/-! ### Reading fields -/

theorem bool?_eq_some_iff (value : Json) (b : Bool) : value.bool? = some b ↔ IsFlag value b := by
  cases value <;> simp [Json.bool?, IsFlag]

theorem word?_map_eq_some_iff (value : Json) (n : UInt64) :
    value.word?.map UInt64.ofNat = some n ↔ IsWord value n := by
  rw [Option.map_eq_some_iff]
  constructor
  · rintro ⟨k, hk, rfl⟩
    cases value with
    | natural k' =>
      rw [Json.word?, Option.ite_none_right_eq_some] at hk
      obtain ⟨hlt, hk⟩ := hk
      obtain rfl := Option.some.inj hk
      rw [IsWord, UInt64.toNat_ofNat_of_lt' hlt]
    | null | bool | otherNumber | string | array | object => cases hk
  · rintro rfl
    exact ⟨n.toNat, Json.word?_natural n.toNat_lt, UInt64.ofNat_toNat⟩

theorem SinkChoice.ofName?_eq_some_iff (name : String) (choice : SinkChoice) :
    ofName? name = some choice ↔ name = choice.name := by
  unfold ofName?
  cases choice <;> split_ifs <;> simp_all [SinkChoice.name]

theorem SinkChoice.ofJson?_eq_some_iff (value : Json) (choice : SinkChoice) :
    ofJson? value = some choice ↔ Stands value choice := by
  rw [ofJson?, Option.bind_eq_some_iff]
  constructor
  · rintro ⟨name, hname, hchoice⟩
    obtain rfl := (ofName?_eq_some_iff name choice).mp hchoice
    unfold Json.choice? at hname
    split at hname
    · subst hname
      exact .name choice
    · subst hname
      exact .member choice
    · cases hname
  · rintro (_ | _)
    · exact ⟨choice.name, rfl, (ofName?_eq_some_iff _ _).mpr rfl⟩
    · exact ⟨choice.name, rfl, (ofName?_eq_some_iff _ _).mpr rfl⟩

section Sets

variable {α : Type} {read : Json → Option α} {stands : Json → α → Prop} {default : α}
  {name : String} {members : List (String × Json)} {value? : Option Json}

theorem setting?_eq_some_iff (hread : ∀ value a, read value = some a ↔ stands value a)
    (hfield : Field name members value?) (a : α) :
    Settings.setting? read default value? = some a ↔ Sets stands default name members a := by
  constructor
  · intro h
    cases value? with
    | none =>
      obtain rfl := Option.some.inj h
      exact .default hfield
    | some value => exact .given hfield ((hread value a).mp h)
  · rintro (habsent | ⟨hgiven, hstands⟩)
    · rw [hfield.unique habsent]
      rfl
    · rw [hfield.unique hgiven]
      exact (hread _ a).mpr hstands

theorem not_sets_of_repeated (h : Repeated name members) (a : α) :
    ¬ Sets stands default name members a := by
  rintro (habsent | ⟨hgiven, -⟩)
  · exact h.not_field habsent
  · exact h.not_field hgiven

theorem sets_or_illTyped (stands : Json → α → Prop) (default : α)
    (hfield : Field name members value?) :
    (∃ a, Sets stands default name members a) ∨ IllTyped stands name members := by
  cases value? with
  | none => exact .inl ⟨default, .default hfield⟩
  | some value =>
    by_cases hstands : ∃ a, stands value a
    · obtain ⟨a, ha⟩ := hstands
      exact .inl ⟨a, .given hfield ha⟩
    · refine .inr ⟨value, ?_, not_exists.mp hstands⟩
      cases hfield
      simp

theorem IllTyped.not_sets (h : IllTyped stands name members) (a : α) :
    ¬ Sets stands default name members a := by
  obtain ⟨value, hmem, hnone⟩ := h
  rintro (habsent | ⟨hgiven, hstands⟩)
  · cases habsent.eq_of_mem hmem
  · obtain rfl := Option.some.inj (hgiven.eq_of_mem hmem)
    exact hnone a hstands

end Sets

namespace Settings

section Record

variable {members : List (String × Json)} {settings : Settings}

theorem Flawed.not_described (h : Flawed members) : ¬ Described members settings := by
  intro hdescribed
  cases h with
  | @repeated name hname hrepeated =>
    simp only [fieldNames, List.mem_cons, List.not_mem_nil, or_false] at hname
    rcases hname with rfl | rfl | rfl
    · exact not_sets_of_repeated hrepeated _ hdescribed.showIncludes
    · exact not_sets_of_repeated hrepeated _ hdescribed.depthLimit
    · exact not_sets_of_repeated hrepeated _ hdescribed.diagnostics
  | showIncludes h => exact h.not_sets _ hdescribed.showIncludes
  | depthLimit h => exact h.not_sets _ hdescribed.depthLimit
  | diagnostics h => exact h.not_sets _ hdescribed.diagnostics

theorem fields_or_flawed (members : List (String × Json)) :
    (∃ flag depth sink, Field "surface_include_directives" members flag ∧
        Field "max_include_depth" members depth ∧ Field "error_sink" members sink) ∨
      Flawed members ∧ ofJson? (.record members) = none := by
  rcases Json.fields_or_repeated fieldNames members with
    ⟨values, hfields⟩ | ⟨name, hname, hrepeated⟩
  · obtain ⟨flag, rest, hflag, hfields, -⟩ := List.forall₂_cons_left_iff.mp hfields
    obtain ⟨depth, rest', hdepth, hfields, -⟩ := List.forall₂_cons_left_iff.mp hfields
    obtain ⟨sink, -, hsink, -⟩ := List.forall₂_cons_left_iff.mp hfields
    exact .inl ⟨flag, depth, sink, hflag, hdepth, hsink⟩
  · refine .inr ⟨.repeated hname hrepeated, ?_⟩
    rw [ofJson?, Json.fields?_of_repeated hname hrepeated]

theorem ofJson?_eq_some_iff_of_fields {flag depth sink : Option Json}
    (hflag : Field "surface_include_directives" members flag)
    (hdepth : Field "max_include_depth" members depth) (hsink : Field "error_sink" members sink) :
    ofJson? (.record members) = some settings ↔ Described members settings := by
  have hfields : Json.fields? fieldNames (.record members) = some [flag, depth, sink] :=
    Json.fields?_of_fields (.cons hflag (.cons hdepth (.cons hsink .nil)))
  rw [ofJson?, hfields]
  simp only [Option.bind_eq_bind, Option.bind_eq_some_iff,
    setting?_eq_some_iff bool?_eq_some_iff hflag,
    setting?_eq_some_iff word?_map_eq_some_iff hdepth,
    setting?_eq_some_iff SinkChoice.ofJson?_eq_some_iff hsink]
  constructor
  · rintro ⟨showIncludes, hflag, depthLimit, hdepth, diagnostics, hsink, heq⟩
    obtain rfl := Option.some.inj heq
    exact ⟨hflag, hdepth, hsink⟩
  · intro h
    exact ⟨_, h.showIncludes, _, h.depthLimit, _, h.diagnostics, rfl⟩

theorem ofJson?_record_eq_some_iff :
    ofJson? (.record members) = some settings ↔ Described members settings := by
  rcases fields_or_flawed members with ⟨flag, depth, sink, hflag, hdepth, hsink⟩ | ⟨hflawed, hnone⟩
  · exact ofJson?_eq_some_iff_of_fields hflag hdepth hsink
  · rw [hnone]
    exact iff_of_false (by simp) hflawed.not_described

theorem described_or_flawed (members : List (String × Json)) :
    (∃ settings, Described members settings) ∨ Flawed members := by
  rcases fields_or_flawed members with ⟨flag, depth, sink, hflag, hdepth, hsink⟩ | ⟨hflawed, -⟩
  · rcases sets_or_illTyped IsFlag ({} : Settings).showIncludes hflag with ⟨_, hflag⟩ | h
    · rcases sets_or_illTyped IsWord ({} : Settings).depthLimit hdepth with ⟨_, hdepth⟩ | h
      · rcases sets_or_illTyped SinkChoice.Stands ({} : Settings).diagnostics hsink with
          ⟨_, hsink⟩ | h
        · exact .inl ⟨⟨_, _, _⟩, hflag, hdepth, hsink⟩
        · exact .inr (.diagnostics h)
      · exact .inr (.depthLimit h)
    · exact .inr (.showIncludes h)
  · exact .inr hflawed

theorem Flawed.ofJson?_eq_none (h : Flawed members) : ofJson? (.record members) = none := by
  rw [Option.eq_none_iff_forall_ne_some]
  intro settings hsettings
  exact h.not_described (ofJson?_record_eq_some_iff.mp hsettings)

end Record

/-! ### Files -/

theorem load_of_holds {disk : Disk} {path text : String}
    (h : disk.Holds path (Utf8.encode text)) :
    load disk path = ((Json.parse? text).bind ofJson?).elim (.error (.parsing path)) .ok := by
  rw [load, h]
  simp only [Utf8.decode_encode]
  cases (Json.parse? text).bind ofJson? <;> rfl

theorem toJson_legible (settings : Settings) : settings.toJson.Legible := by
  apply Json.Legible.record
  simp only [List.forall_mem_cons]
  exact ⟨.bool _, .natural _, .text _, by simp⟩

theorem ofJson?_toJson (settings : Settings) : ofJson? settings.toJson = some settings := by
  rw [toJson, ofJson?_record_eq_some_iff]
  have hfield {member : String × Json} (hmember : member ∈ [
      ("surface_include_directives", .bool settings.showIncludes),
      ("max_include_depth", .natural settings.depthLimit.toNat),
      ("error_sink", settings.diagnostics.toJson)]) : Field member.1 _ (some member.2) :=
    .of_mem (by simp) hmember
  exact ⟨.given (hfield (.head _)) rfl, .given (hfield (.tail _ (.head _))) rfl,
    .given (hfield (.tail _ (.tail _ (.head _)))) (.name settings.diagnostics)⟩

theorem load_of_save {settings : Settings} {tree tree' : FileTree} {path : String}
    (h : settings.save tree path = .ok tree') : load tree'.disk path = .ok settings := by
  rw [save] at h
  cases hwrite : tree.write path (Utf8.encode settings.toJson.pretty) with
  | error obstacle =>
    rw [hwrite] at h
    cases h
  | ok written =>
    rw [hwrite] at h
    obtain rfl := Except.ok.inj h
    have hholds : written.disk.Holds path (Utf8.encode settings.toJson.pretty) :=
      FileTree.openPath_of_write hwrite
    rw [load_of_holds hholds, Json.parse?_pretty settings.toJson_legible, Option.bind_some,
      settings.ofJson?_toJson, Option.elim_some]

end Settings

/-- A file with an object is loaded as the settings that its members describe, and as none if the
members are flawed or something follows the object. Settings that have been saved are loaded from
where they were saved. -/
theorem settings_load_overrides :
    (∀ (disk : Disk) (path text : String) (members : List (String × Json)),
      disk.Holds path (Utf8.encode text) →
      Json.Spells text.toList (.element (.record members)) →
      (∀ settings, Settings.Described members settings →
        Settings.load disk path = .ok settings) ∧
      (Settings.Flawed members → Settings.load disk path = .error (.parsing path)) ∧
      ((∃ settings, Settings.Described members settings) ∨ Settings.Flawed members)) ∧
    (∀ (disk : Disk) (path text : String) (before object after : List Char)
      (members : List (Option String × Json)),
      disk.Holds path (Utf8.encode text) → text.toList = before ++ (object ++ after) →
      Json.AllSpace before → Json.Spells object (.value (.object members)) →
      ¬ Json.AllSpace after → Settings.load disk path = .error (.parsing path)) ∧
    ∀ (settings : Settings) (tree tree' : FileTree) (path : String),
      settings.save tree path = .ok tree' → Settings.load tree'.disk path = .ok settings := by
  refine ⟨?_, ?_, fun _ _ _ _ h => Settings.load_of_save h⟩
  · intro disk path text members hholds hspells
    rw [Settings.load_of_holds hholds, Json.parse?_of_spells hspells, Option.bind_some]
    refine ⟨?_, ?_, Settings.described_or_flawed members⟩
    · intro settings h
      rw [Settings.ofJson?_record_eq_some_iff.mpr h, Option.elim_some]
    · intro h
      rw [h.ofJson?_eq_none, Option.elim_none]
  · intro disk path text before object after members hholds htext hbefore hobject hafter
    rw [Settings.load_of_holds hholds, Json.parse?_of_after_object htext hbefore hobject hafter]
    rfl

/-- The greatest depth, after something that is no setting. -/
def greatestDepth : String :=
  "\x7b\"note\":[\x7b\x7d],\n \"max_include_depth\" : 18446744073709551615 \x7d"

/-- A sink of another type, and an object that something follows. -/
def settingsTexts : Disk :=
  .ofTexts [("depth.json", greatestDepth), ("sink.json", "\x7b\"error_sink\":null\x7d"),
    ("twice.json", "\x7b\x7d \x7b\x7d")]

/-- A link in the working directory to a file that is not there yet. -/
def linkedTree : FileTree :=
  ⟨[(["parser.json"], .link "conf/real.json"), (["conf"], .directory)], []⟩

theorem resolve_linkedTree :
    linkedTree.resolve true "parser.json" = .ok (.vacant ["real.json", "conf"]) := by
  have hnames : pathNames "parser.json" = ["parser.json"] := by decide +kernel
  have htarget : pathNames "conf/real.json" = ["conf", "real.json"] := by decide +kernel
  have hlink : linkedTree.find? ["parser.json"] = some (.link "conf/real.json") := rfl
  have hdirectory : linkedTree.find? ["conf"] = some .directory := rfl
  have hvacant : linkedTree.find? ["real.json", "conf"] = none := rfl
  have hsizes : "parser.json".utf8ByteSize = 11 ∧ "conf".utf8ByteSize = 4 ∧
      "real.json".utf8ByteSize = 9 := by decide +kernel
  simp [FileTree.resolve, FileTree.trace, FileTree.follow, hnames, htarget, hlink, hdirectory,
    hvacant, hsizes, show linkedTree.workingDirectory = [] from rfl]

theorem settings_load_overrides_texts :
    Settings.load settingsTexts "depth.json" = .ok { depthLimit := 18446744073709551615 } ∧
    Settings.load settingsTexts "sink.json" = .error (.parsing "sink.json") ∧
    Settings.load settingsTexts "twice.json" = .error (.parsing "twice.json") ∧
    ∃ tree', (⟨false, 8, .discard⟩ : Settings).save linkedTree "parser.json" = .ok tree' ∧
      Settings.load tree'.disk "parser.json" = .ok ⟨false, 8, .discard⟩ := by
  obtain ⟨hobject, hafter, hsave⟩ := settings_load_overrides
  have hblank : Json.AllSpace [' '] := by simp [Json.AllSpace]
  have hbreak : Json.AllSpace ['\n', ' '] := by simp [Json.AllSpace]
  have hnote : Json.Spells _ (.member (some "note", .array [.object []])) :=
    .member Json.allSpace_nil (Json.spellsString_quote "note") Json.allSpace_nil
      (.alone (.array (.lastItem (.alone (.emptyObject Json.allSpace_nil)))))
  have hdepth : Json.Spells _
      (.member (some "max_include_depth", .natural 18446744073709551615)) :=
    .member hbreak (Json.spellsString_quote "max_include_depth") hblank
      (.element hblank (.natural 18446744073709551615) hblank)
  have hsink : Json.Spells _ (.member (some "error_sink", .null)) :=
    .member Json.allSpace_nil (Json.spellsString_quote "error_sink") Json.allSpace_nil
      (.alone .null)
  have hgiven : Field "max_include_depth" ([("note", .array [.object []])] ++
      ("max_include_depth", .natural 18446744073709551615) :: []) (some _) :=
    .given (by simp) (by simp)
  obtain ⟨hdescribed, -⟩ := hobject settingsTexts "depth.json" greatestDepth
    [("note", .array [.object []]), ("max_include_depth", .natural 18446744073709551615)] rfl
    (.alone (.object (.moreMembers hnote (.lastMember hdepth))))
  obtain ⟨-, hflawed, -⟩ := hobject settingsTexts "sink.json" "\x7b\"error_sink\":null\x7d"
    [("error_sink", .null)] rfl (.alone (.object (.lastMember hsink)))
  refine ⟨hdescribed _ ⟨?_, ?_, ?_⟩, hflawed (.diagnostics ⟨.null, by simp, ?_⟩), ?_, ?_⟩
  · exact .default (.absent (by decide))
  · exact .given hgiven rfl
  · exact .default (.absent (by decide))
  · rintro choice ⟨⟩
  · exact hafter settingsTexts "twice.json" "\x7b\x7d \x7b\x7d" [] ['\x7b', '\x7d']
      [' ', '\x7b', '\x7d'] [] rfl rfl Json.allSpace_nil (.emptyObject Json.allSpace_nil)
      (by simp [Json.AllSpace])
  · have hwrite : (⟨false, 8, .discard⟩ : Settings).save linkedTree "parser.json" =
        .ok (linkedTree.insert ["real.json", "conf"]
          (.file (Utf8.encode (Settings.toJson ⟨false, 8, .discard⟩).pretty))) := by
      rw [Settings.save, FileTree.write, resolve_linkedTree]
      rfl
    exact ⟨_, hwrite, hsave _ _ _ _ hwrite⟩

end DeviceDescription
