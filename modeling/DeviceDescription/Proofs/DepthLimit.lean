import DeviceDescription.Proofs.Reach

/-!
# The depth limit

The limit on the depth of includes has no say in a load until it stops it. A load that it does not
stop goes the same way under every higher limit, to the same lines and the same answer. One that it
stops has come to an include line that stands as deep as the limit allows, so that the files being
expanded are the root and as many includes as the limit; and none of the files opened until then
stands deeper.
-/

namespace DeviceDescription

def Fault.IsTooDeep (fault : Fault) : Prop := ∃ path limit, fault = .includeTooDeep path limit

/-- The expansion has been stopped by the depth limit. -/
def Expansion.TooDeep (e : Expansion) : Prop := ∃ stop, e.stop = some stop ∧ stop.fault.IsTooDeep

/-- The same session, with another depth limit. -/
def Session.limitedTo (s : Session) (limit : UInt64) : Session :=
  { s with settings := { s.settings with depthLimit := limit } }

/-- The line, which the expansion comes to after `past`, includes a file so many levels below the
root. -/
def IncludesAt (disk : Disk) (limit : Nat) (root : String) (past : List Line) (line : Line)
    (depth : Nat) : Prop :=
  line.isInclude = true ∧ ∃ above bytes rest,
    Reached disk limit root past line.file above line.number (bytes :: rest) ∧
      depth = above.length + 1

/-- The expansion of `root` has stopped at `line`, because the file at `path` that it includes is
too deep. The lines until then are `before`, and this many files have been opened. -/
structure StoppedByLimit (disk : Disk) (limit : Nat) (root path : String) (before : List Line)
    (line : Line) (opened : Nat) : Prop where
  tokens : tokenize line.text = .ok [includeWord, path]
  /-- The root and as many includes as the limit are being expanded, no two of them the same file. -/
  active : ∃ above rest,
    Reached disk limit root before line.file above line.number (Utf8.encode line.text :: rest) ∧
      (∃ includes, line.file :: above = includes ++ [root] ∧ includes.length = limit) ∧
      ((line.file :: above).map disk.key).Nodup
  /-- Beside the root one file has been opened for each include line before. -/
  opened_eq : opened = 1 + before.countP Line.isInclude
  /-- None of these files is deeper than the limit. -/
  shallow : ∀ past earlier later, before = past ++ earlier :: later → earlier.isInclude = true →
    (∃ depth, IncludesAt disk limit root past earlier depth) ∧
      ∀ depth, IncludesAt disk limit root past earlier depth → depth ≤ limit
  /-- The one that has not been opened is. -/
  deep : IncludesAt disk limit root before line (limit + 1)

/-! ### Under a higher limit -/

namespace Expansion

variable {first : Expansion} {second : Unit → Expansion}

theorem not_tooDeep_of_andThen (h : ¬ (first.andThen second).TooDeep) : ¬ first.TooDeep := by
  rintro ⟨stop, hs, hfault⟩
  apply h
  rw [andThen_of_stopped hs]
  exact ⟨stop, hs, hfault⟩

theorem not_tooDeep_second (h : ¬ (first.andThen second).TooDeep) (hfirst : first.stop = none) :
    ¬ (second ()).TooDeep := by
  rintro ⟨stop, hs, hfault⟩
  apply h
  rw [andThen_of_complete hfirst]
  exact ⟨stop, hs, hfault⟩

end Expansion

section Agreement

variable {expandOne expandOther : Line → String → Expansion}
  (hother : ∀ site path, ¬ (expandOne site path).TooDeep →
    expandOther site path = expandOne site path)
include hother

theorem expandLines_of_not_tooDeep (file : String) (number : Nat) {rest : List (List UInt8)}
    (h : ¬ (expandLines expandOne file number rest).TooDeep) :
    expandLines expandOther file number rest = expandLines expandOne file number rest := by
  induction rest generalizing number with
  | nil => rfl
  | cons bytes rest ih =>
    rw [expandLines] at h
    rw [expandLines, expandLines]
    have hline := Expansion.not_tooDeep_second h rfl
    cases ht : lineTarget file bytes with
    | error fault => rfl
    | ok target =>
      rw [ht] at hline
      cases target with
      | none =>
        have hrest := ih (number + 1) hline
        simp only [hrest]
      | some path =>
        have hpath := hother _ path (Expansion.not_tooDeep_of_andThen hline)
        simp only [hpath]
        cases hstop : (expandOne ⟨file, number, Utf8.decodeLossy bytes⟩ path).stop with
        | some stop => simp only [Expansion.andThen_of_stopped hstop]
        | none =>
          have hrest := ih (number + 1) (Expansion.not_tooDeep_second hline hstop)
          simp only [hrest]

theorem expandFile_of_not_tooDeep (disk : Disk) (site : Option Line) (path : String)
    (h : ¬ (expandFile disk expandOne site path).TooDeep) :
    expandFile disk expandOther site path = expandFile disk expandOne site path := by
  rw [expandFile] at h
  rw [expandFile, expandFile]
  cases hc : (disk.look path).contents with
  | error obstacle => rfl
  | ok contents =>
    cases contents with
    | unreadable obstacle => rfl
    | bytes data =>
      rw [hc] at h
      have hlines := expandLines_of_not_tooDeep hother path 1 h
      simp only [hlines]

end Agreement

theorem expandInclude_of_not_tooDeep {disk : Disk} {limit limit' levels levels' : Nat}
    (hle : levels ≤ levels') (active : List String) (site : Line) (path : String)
    (h : ¬ (expandInclude disk limit levels active site path).TooDeep) :
    expandInclude disk limit' levels' active site path =
      expandInclude disk limit levels active site path := by
  induction levels generalizing levels' active site path with
  | zero =>
    by_cases hkey : disk.key path ∈ active
    · rw [expandInclude_of_cycle _ _ hkey, expandInclude_of_cycle _ _ hkey]
    · rw [expandInclude, if_neg hkey] at h
      exact absurd ⟨_, rfl, path, limit, rfl⟩ h
  | succ levels ih =>
    obtain ⟨more, rfl⟩ : ∃ more, levels' = more + 1 := ⟨levels' - 1, by omega⟩
    by_cases hkey : disk.key path ∈ active
    · rw [expandInclude_of_cycle _ _ hkey, expandInclude_of_cycle _ _ hkey]
    · rw [expandInclude, if_neg hkey] at h
      rw [expandInclude, expandInclude, if_neg hkey, if_neg hkey]
      apply expandFile_of_not_tooDeep _ disk (some site) path h
      intro site' path' hdeep
      exact ih (by omega) _ site' path' hdeep

theorem expand_of_not_tooDeep {disk : Disk} {limit limit' : Nat} {root : String}
    (hle : limit ≤ limit') (h : ¬ (expand disk limit root).TooDeep) :
    expand disk limit' root = expand disk limit root := by
  rw [expand] at h
  rw [expand, expand]
  apply expandFile_of_not_tooDeep _ disk none root h
  intro site path hdeep
  exact expandInclude_of_not_tooDeep hle _ site path hdeep

/-! ### At the limit -/

theorem lineTarget_not_tooDeep {file : String} {bytes : List UInt8} {fault : Fault}
    (h : lineTarget file bytes = .error fault) : ¬ fault.IsTooDeep := by
  rintro ⟨path, limit, rfl⟩
  rcases lineTarget_eq_error_iff.mp h with ⟨_, -, hf⟩ | ⟨_, -, ⟨e, -, hf⟩ | ⟨_, -, hf⟩⟩
  · cases hf
  · cases e <;> cases hf
  · rcases includeTarget_eq_error_iff.mp hf with ⟨-, hf⟩ | ⟨_, _, _, -, hf⟩ <;> cases hf

section Line

variable {disk : Disk} {limit : Nat} {file : String} {above : List String} {number : Nat}

theorem exists_include_of_tooDeep {bytes : List UInt8} {stop : Stop}
    (h : Faulty disk limit file above number bytes stop) (hdeep : stop.fault.IsTooDeep) :
    ∃ text path, bytes = Utf8.encode text ∧ tokenize text = .ok [includeWord, path] ∧
      disk.key path ∉ (file :: above).map disk.key ∧ limit < (file :: above).length ∧
      stop = ⟨.includeTooDeep path limit, some ⟨file, number, text⟩⟩ := by
  cases h with
  | malformed he => exact absurd hdeep (lineTarget_not_tooDeep he)
  | refused he hr =>
    obtain ⟨text, tokens, rfl, ht, hsome⟩ := exists_tokens_of_lineTarget he
    obtain rfl := includeTarget_eq_some_iff.mp hsome
    rw [Utf8.decodeLossy_encode] at hr
    cases hr with
    | deep hkey hlen => exact ⟨text, _, rfl, ht, hkey, hlen, rfl⟩
    | cycle | closed | unreadable =>
      obtain ⟨_, _, hfault⟩ := hdeep
      cases hfault

theorem expandRest_of_deep {text path : String} (rest : List (List UInt8))
    (ht : tokenize text = .ok [includeWord, path])
    (hkey : disk.key path ∉ (file :: above).map disk.key) (hlen : limit < (file :: above).length) :
    expandRest disk limit file above number (Utf8.encode text :: rest) =
      ⟨[⟨file, number, text⟩], 0,
        some ⟨.includeTooDeep path limit, some ⟨file, number, text⟩⟩⟩ := by
  have hlevels : limit - above.length = 0 := by
    rw [List.length_cons] at hlen
    omega
  rw [expandRest, expandLines, lineTarget_include file ht, Utf8.decodeLossy_encode,
    Expansion.ofLine_andThen, hlevels]
  simp only [expandInclude, if_neg hkey]
  rfl

end Line

/-- For each include line but the last one a file has been opened. -/
theorem opened_of_tooDeep {disk : Disk} {limit : Nat} {file : String} {above : List String}
    {number : Nat} {rest : List (List UInt8)}
    (h : (expandRest disk limit file above number rest).TooDeep) :
    (expandRest disk limit file above number rest).opened + 1 =
      (expandRest disk limit file above number rest).lines.countP Line.isInclude := by
  obtain ⟨stop, hstop, hdeep⟩ := h
  induction file, above, number, rest using expandRest_induction disk limit with
  | done => cases hstop
  | faulty file above number bytes rest stop' hf =>
    rw [(hf.expandRest_eq rest).2] at hstop
    obtain rfl := Option.some.inj hstop
    obtain ⟨text, path, rfl, ht, hkey, hlen, -⟩ := exists_include_of_tooDeep hf hdeep
    rw [expandRest_of_deep rest ht hkey hlen,
      List.countP_cons_of_pos ((isInclude_iff ht).mpr rfl)]
    rfl
  | plain file above number text tokens rest ht hword ih =>
    rw [expandRest_of_plain number rest ht hword, Expansion.ofLine_andThen] at hstop ⊢
    rw [List.countP_cons_of_neg (mt (isInclude_iff ht).mp hword)]
    exact ih hstop
  | included file above number text path data rest ht ha ihInner ihRest =>
    rw [expandRest_of_admits number rest ht ha, Expansion.ofLine_andThen] at hstop ⊢
    rw [List.countP_cons_of_pos ((isInclude_iff ht).mpr rfl)]
    cases hi : (expandRest disk limit path (file :: above) 1 (fileLines data)).opening.stop with
    | some stop' =>
      rw [Expansion.andThen_of_stopped hi] at hstop ⊢
      have hinner := ihInner hstop
      simp only [Expansion.opening]
      omega
    | none =>
      rw [Expansion.andThen_of_complete hi] at hstop ⊢
      have hinner := congrArg Expansion.opened (spliced_of_expandRest hi).expandRest_eq
      have hrest := ihRest hstop
      simp only [Expansion.opening, List.countP_append] at hinner ⊢
      omega

namespace Reached

variable {disk : Disk} {limit : Nat} {root : String} {before : List Line} {file : String}
  {above : List String} {number : Nat} {rest : List (List UInt8)}

theorem exists_chain_eq (h : Reached disk limit root before file above number rest) :
    ∃ includes, file :: above = includes ++ [root] ∧ includes.length = above.length := by
  induction h with
  | root => exact ⟨[], rfl, rfl⟩
  | plain _ _ _ ih => exact ih
  | @enter before file above number text path data rest _ _ _ ih =>
    obtain ⟨includes, hchain, hlength⟩ := ih
    exact ⟨path :: includes, by rw [hchain, List.cons_append], by simp [hlength]⟩
  | leave _ _ _ _ ih => exact ih

/-- An include line that the expansion goes on from stands above the limit. -/
theorem depth_le {line : Line} {bytes : List UInt8}
    (h : Reached disk limit root before line.file above line.number (bytes :: rest))
    (hinclude : line.isInclude = true) {later : List Line} (hlater : later ≠ [])
    (hlines : (expand disk limit root).lines = before ++ line :: later) :
    above.length + 1 ≤ limit := by
  rcases line_cases disk limit line.file above line.number bytes with
    ⟨stop, hf⟩ | ⟨text, tokens, rfl, ht, hword⟩ | ⟨text, path, data, rfl, ht, ha⟩
  · have hlast := ((h.stops_iff stop).mpr hf).2
    rw [hlines, List.append_cancel_left_eq] at hlast
    exact absurd (List.cons.inj hlast).2 hlater
  · obtain ⟨more, hmore⟩ := h.lines_prefix
    rw [hlines, List.append_assoc, List.append_cancel_left_eq, Utf8.decodeLossy_encode] at hmore
    obtain ⟨hline, -⟩ := List.cons.inj hmore
    rw [← hline] at hinclude
    exact absurd ((isInclude_iff ht).mp hinclude) hword
  · exact ha.shallow

end Reached

theorem stoppedByLimit_of_stop {disk : Disk} {limit : Nat} {root : String} {stop : Stop}
    (hstop : (expand disk limit root).stop = some stop) (hdeep : stop.fault.IsTooDeep) :
    ∃ before line path, stop = ⟨.includeTooDeep path limit, some line⟩ ∧
      (expand disk limit root).lines = before ++ [line] ∧
      StoppedByLimit disk limit root path before line (expand disk limit root).opened := by
  rcases expand_stop hstop with ⟨_, rfl⟩ | ⟨_, rfl⟩ | ⟨before, file, above, number, bytes, rest, h, hf⟩
  · obtain ⟨_, _, hfault⟩ := hdeep
    cases hfault
  · obtain ⟨_, _, hfault⟩ := hdeep
    cases hfault
  · have hlines := ((h.stops_iff stop).mpr hf).2
    obtain ⟨text, path, rfl, ht, hkey, hlen, rfl⟩ := exists_include_of_tooDeep hf hdeep
    rw [Utf8.decodeLossy_encode] at hlines
    have hheight : above.length = limit := by
      have hle := h.above_length_le
      rw [List.length_cons] at hlen
      omega
    obtain ⟨includes, hchain, hlength⟩ := h.exists_chain_eq
    obtain ⟨data, hholds⟩ := h.exists_holds root (by simp [hchain])
    refine ⟨before, ⟨file, number, text⟩, path, rfl, hlines, ht, ?_, ?_, ?_, ?_⟩
    · exact ⟨above, rest, h, ⟨includes, hchain, hlength.trans hheight⟩, h.nodup⟩
    · have hopened : expand disk limit root = _ := expand_of_holds hholds
      rw [hopened] at hstop hlines ⊢
      have hcount := opened_of_tooDeep ⟨_, hstop, hdeep⟩
      simp only [Expansion.opening] at hlines ⊢
      rw [hcount, hlines, List.countP_append, List.countP_singleton, (isInclude_iff ht).mpr rfl]
      exact Nat.add_comm _ _
    · rintro past earlier later rfl hinclude
      rw [List.append_assoc, List.cons_append] at hlines
      have hprefix : past ++ [earlier] <+: (expand disk limit root).lines :=
        ⟨later ++ [_], by rw [hlines, List.append_assoc, List.singleton_append]⟩
      obtain ⟨above', bytes', rest', -, h'⟩ := prefix_lines_iff_reached.mp hprefix
      refine ⟨⟨_, hinclude, above', bytes', rest', h', rfl⟩, ?_⟩
      rintro depth ⟨-, above'', bytes'', rest'', h'', rfl⟩
      exact h''.depth_le hinclude (by simp) hlines
    · exact ⟨(isInclude_iff ht).mpr rfl, above, _, rest, h, by rw [hheight]⟩

/-- A load that fails for no include being too deep has the same answer under every higher limit,
and leaves the session the same but for that limit. One that does fail for it stops at an include
line one level too deep. -/
theorem load_limitedTo (s : Session) (disk : Disk) (root : String) (limit : UInt64)
    (hle : s.settings.depthLimit ≤ limit) :
    ((∀ d, (s.load disk root).1 = .error d → ¬ d.fault.IsTooDeep) →
      (s.limitedTo limit).load disk root =
        ((s.load disk root).1, (s.load disk root).2.limitedTo limit)) ∧
    ∀ d path n, (s.load disk root).1 = .error d → d.fault = .includeTooDeep path n →
      n = s.settings.depthLimit.toNat ∧
        ∃ before line, d.site = some line ∧ (s.load disk root).2.lines = before ++ [line] ∧
          StoppedByLimit disk s.settings.depthLimit.toNat root path before line
            (s.load disk root).2.filesOpened := by
  constructor
  · intro hnot
    have hsame : expand disk limit.toNat root = expand disk s.settings.depthLimit.toNat root := by
      apply expand_of_not_tooDeep (UInt64.le_iff_toNat_le.mp hle)
      rintro ⟨stop, hstop, hdeep⟩
      exact hnot _ (by rw [s.load_of_stopped disk root hstop]) hdeep
    simp only [Session.load, Session.limitedTo, hsame]
    cases (expand disk s.settings.depthLimit.toNat root).stop <;> rfl
  · intro d path n hload hfault
    have hstop := s.exists_stop_of_load disk root hload
    obtain ⟨before, line, path', hsame, hlines, hstopped⟩ :=
      stoppedByLimit_of_stop hstop ⟨path, n, hfault⟩
    obtain ⟨hfault', hsite⟩ := Stop.mk.inj hsame
    rw [hfault] at hfault'
    obtain ⟨rfl, rfl⟩ := Fault.includeTooDeep.inj hfault'
    refine ⟨rfl, before, line, hsite, ?_, ?_⟩
    · rw [s.load_lines, hlines]
    · rw [s.load_of_stopped disk root hstop]
      exact hstopped

/-- A hand whose finger has a joint in a third file, two levels below it. -/
def hand : Disk :=
  .ofTexts [("hand.dd", "include palm.dd\ninclude finger.dd"), ("palm.dd", "bus can0"),
    ("finger.dd", "begin motor\ninclude joint.dd\nend motor"), ("joint.dd", "kp 40.0")]

def handLines : List Line :=
  [⟨"hand.dd", 1, "include palm.dd"⟩, ⟨"palm.dd", 1, "bus can0"⟩,
    ⟨"hand.dd", 2, "include finger.dd"⟩, ⟨"finger.dd", 1, "begin motor"⟩]

def jointTooDeep : Diagnostic :=
  ⟨.includeTooDeep "joint.dd" 1, some ⟨"finger.dd", 2, "include joint.dd"⟩,
    "include nesting deeper than 1 while opening joint.dd"⟩

theorem load_hand :
    ((Session.new { depthLimit := 1 }).load hand "hand.dd").1 = .error jointTooDeep ∧
      StoppedByLimit hand 1 "hand.dd" "joint.dd" handLines
        ⟨"finger.dd", 2, "include joint.dd"⟩ 3 ∧
      ((Session.new { depthLimit := 1 }).load hand "finger.dd").1 = .ok () ∧
      ((Session.new { depthLimit := 1 }).limitedTo 0xffffffffffffffff).load hand "finger.dd" =
        (.ok (), ((Session.new { depthLimit := 1 }).load hand "finger.dd").2.limitedTo
          0xffffffffffffffff) := by
  have hload : ((Session.new { depthLimit := 1 }).load hand "hand.dd").1 = .error jointTooDeep := by
    decide +kernel
  have hall : ((Session.new { depthLimit := 1 }).load hand "hand.dd").2.lines =
      handLines ++ [⟨"finger.dd", 2, "include joint.dd"⟩] := by decide +kernel
  have hopened : ((Session.new { depthLimit := 1 }).load hand "hand.dd").2.filesOpened = 3 := by
    decide +kernel
  have hfinger : ((Session.new { depthLimit := 1 }).load hand "finger.dd").1 = .ok () := by
    decide +kernel
  obtain ⟨-, hstops⟩ := load_limitedTo (.new { depthLimit := 1 }) hand "hand.dd" 2 (by decide)
  obtain ⟨-, before, line, hsite, hlines, hstopped⟩ := hstops _ "joint.dd" 1 hload rfl
  obtain rfl := Option.some.inj hsite
  obtain ⟨rfl, -⟩ := List.append_inj' (hall.symm.trans hlines) rfl
  rw [hopened] at hstopped
  obtain ⟨hsame, -⟩ :=
    load_limitedTo (.new { depthLimit := 1 }) hand "finger.dd" 0xffffffffffffffff (by decide)
  rw [hfinger] at hsame
  refine ⟨hload, hstopped, hfinger, hsame ?_⟩
  rintro d ⟨⟩

end DeviceDescription
