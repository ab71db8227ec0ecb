import DeviceDescription.Proofs.Load
import DeviceDescription.Proofs.Utf8

/-!
# Include expansion as a textual splice

`Spliced` describes the expansion of a file's lines by their structure alone: each line stands in
place, and an include line is followed at once by the expansion of its file. A description loads
exactly when it has an expansion in this sense, and the lines loaded are that expansion.
-/

namespace DeviceDescription

def Disk.Holds (disk : Disk) (path : String) (data : List UInt8) : Prop :=
  (disk.look path).contents = .ok (.bytes data)

theorem Disk.Holds.unique {disk : Disk} {path : String} {data data' : List UInt8} (h : disk.Holds path data)
    (h' : disk.Holds path data') : data = data' := by
  rw [Disk.Holds, h] at h'
  exact Contents.bytes.inj (Except.ok.inj h')

/-- An include of `path` below the files of `chain`, the innermost first, is carried out: its file
is none of those being expanded, the chain below the root stays within the limit, and the file
holds `data`. -/
structure Disk.Admits (disk : Disk) (limit : Nat) (chain : List String) (path : String)
    (data : List UInt8) : Prop where
  fresh : disk.key path ∉ chain.map disk.key
  shallow : chain.length ≤ limit
  holds : disk.Holds path data

/-- The lines `rest` of `file`, from line `number` on, expand to `lines` while the files `above`
wait for them. -/
inductive Spliced (disk : Disk) (limit : Nat) :
    String → List String → Nat → List (List UInt8) → List Line → Prop
  | done {file above number} : Spliced disk limit file above number [] []
  | plain {file above number text tokens rest lines} :
      tokenize text = .ok tokens → tokens.head? ≠ some includeWord →
      Spliced disk limit file above (number + 1) rest lines →
      Spliced disk limit file above number (Utf8.encode text :: rest)
        (⟨file, number, text⟩ :: lines)
  | included {file above number text path data rest inner lines} :
      tokenize text = .ok [includeWord, path] →
      disk.Admits limit (file :: above) path data →
      Spliced disk limit path (file :: above) 1 (fileLines data) inner →
      Spliced disk limit file above (number + 1) rest lines →
      Spliced disk limit file above number (Utf8.encode text :: rest)
        (⟨file, number, text⟩ :: (inner ++ lines))

def Disk.Expands (disk : Disk) (limit : Nat) (root : String) (lines : List Line) : Prop :=
  ∃ data, disk.Holds root data ∧ Spliced disk limit root [] 1 (fileLines data) lines

/-- Why an include of `path` on the line `site` is not carried out, in the order of the checks. -/
inductive Disk.Refuses (disk : Disk) (limit : Nat) (chain : List String) (site : Line)
    (path : String) : Stop → Prop
  | cycle : disk.key path ∈ chain.map disk.key →
      disk.Refuses limit chain site path ⟨.inclusionCycle path, some site⟩
  | deep : disk.key path ∉ chain.map disk.key → limit < chain.length →
      disk.Refuses limit chain site path ⟨.includeTooDeep path limit, some site⟩
  | closed {obstacle} : disk.key path ∉ chain.map disk.key → chain.length ≤ limit →
      (disk.look path).contents = .error obstacle →
      disk.Refuses limit chain site path ⟨.cannotOpen path obstacle.message, some site⟩
  | unreadable {obstacle} : disk.key path ∉ chain.map disk.key → chain.length ≤ limit →
      (disk.look path).contents = .ok (.unreadable obstacle) →
      disk.Refuses limit chain site path ⟨.readFailed path obstacle.message, none⟩

theorem Disk.admits_or_refuses (disk : Disk) (limit : Nat) (chain : List String) (site : Line)
    (path : String) :
    (∃ data, disk.Admits limit chain path data) ∨ ∃ stop, disk.Refuses limit chain site path stop := by
  by_cases hkey : disk.key path ∈ chain.map disk.key
  · exact .inr ⟨_, .cycle hkey⟩
  · by_cases hlen : chain.length ≤ limit
    · cases hc : (disk.look path).contents with
      | error obstacle => exact .inr ⟨_, .closed hkey hlen hc⟩
      | ok contents =>
        cases contents with
        | bytes data => exact .inl ⟨data, hkey, hlen, hc⟩
        | unreadable obstacle => exact .inr ⟨_, .unreadable hkey hlen hc⟩
    · exact .inr ⟨_, .deep hkey (by omega)⟩

/-- Why an expansion stops at a line: it is no text, cannot be cut into tokens, has no or too many
arguments, or its include is refused. -/
inductive Faulty (disk : Disk) (limit : Nat) (file : String) (above : List String) (number : Nat)
    (bytes : List UInt8) : Stop → Prop
  | malformed {fault} : lineTarget file bytes = .error fault →
      Faulty disk limit file above number bytes
        ⟨fault, some ⟨file, number, Utf8.decodeLossy bytes⟩⟩
  | refused {path stop} : lineTarget file bytes = .ok (some path) →
      disk.Refuses limit (file :: above) ⟨file, number, Utf8.decodeLossy bytes⟩ path stop →
      Faulty disk limit file above number bytes stop

def Line.isInclude (line : Line) : Bool :=
  match tokenize line.text with
  | .ok tokens => tokens.head? == some includeWord
  | .error _ => false

theorem isInclude_iff {file : String} {number : Nat} {text : String} {tokens : List String}
    (ht : tokenize text = .ok tokens) :
    Line.isInclude ⟨file, number, text⟩ = true ↔ tokens.head? = some includeWord := by
  rw [Line.isInclude, ht]
  exact beq_iff_eq

/-! ### What the functions of an expansion do -/

namespace Expansion

theorem andThen_of_stopped {first : Expansion} {stop : Stop} (h : first.stop = some stop)
    (second : Unit → Expansion) : first.andThen second = first := by
  simp only [andThen, h]

theorem andThen_of_complete {first : Expansion} (h : first.stop = none)
    (second : Unit → Expansion) :
    first.andThen second = ⟨first.lines ++ (second ()).lines,
      first.opened + (second ()).opened, (second ()).stop⟩ := by
  simp only [andThen, h]

theorem ofLine_andThen (line : Line) (second : Unit → Expansion) :
    (ofLine line).andThen second =
      ⟨line :: (second ()).lines, (second ()).opened, (second ()).stop⟩ := by
  rw [andThen_of_complete rfl]
  simp only [ofLine, List.singleton_append, Nat.zero_add]

end Expansion

theorem includeTarget_eq_none_iff {tokens : List String} :
    includeTarget tokens = .ok none ↔ tokens.head? ≠ some includeWord := by
  cases tokens with
  | nil => simp [includeTarget]
  | cons word arguments =>
    by_cases hw : word = includeWord
    · subst hw
      cases arguments with
      | nil => simp [includeTarget]
      | cons path extra => cases extra <;> simp [includeTarget]
    · simp [includeTarget, hw]

theorem includeTarget_eq_some_iff {tokens : List String} {path : String} :
    includeTarget tokens = .ok (some path) ↔ tokens = [includeWord, path] := by
  cases tokens with
  | nil => simp [includeTarget]
  | cons word arguments =>
    by_cases hw : word = includeWord
    · subst hw
      cases arguments with
      | nil => simp [includeTarget]
      | cons path extra => cases extra <;> simp [includeTarget]
    · simp [includeTarget, hw]

theorem includeTarget_eq_error_iff {tokens : List String} {fault : Fault} :
    includeTarget tokens = .error fault ↔
      (tokens = [includeWord] ∧ fault = .missingArgument includeWord) ∨
        ∃ path extra more, tokens = includeWord :: path :: extra :: more ∧
          fault = .extraArgument includeWord extra := by
  cases tokens with
  | nil => simp [includeTarget]
  | cons word arguments =>
    by_cases hw : word = includeWord
    · subst hw
      cases arguments with
      | nil => simp [includeTarget, eq_comm]
      | cons path extra => cases extra <;> simp [includeTarget, eq_comm]
    · simp [includeTarget, hw]

theorem lineTarget_encode {text : String} {tokens : List String} (file : String)
    (h : tokenize text = .ok tokens) :
    lineTarget file (Utf8.encode text) = includeTarget tokens := by
  simp only [lineTarget, Utf8.decode_encode, h]

theorem lineTarget_plain {text : String} {tokens : List String} (file : String)
    (h : tokenize text = .ok tokens) (hword : tokens.head? ≠ some includeWord) :
    lineTarget file (Utf8.encode text) = .ok none := by
  rw [lineTarget_encode file h, includeTarget_eq_none_iff.mpr hword]

theorem lineTarget_include {text path : String} (file : String)
    (h : tokenize text = .ok [includeWord, path]) :
    lineTarget file (Utf8.encode text) = .ok (some path) := by
  rw [lineTarget_encode file h, includeTarget_eq_some_iff.mpr rfl]

theorem exists_tokens_of_lineTarget {file : String} {bytes : List UInt8} {target : Option String}
    (h : lineTarget file bytes = .ok target) :
    ∃ text tokens, bytes = Utf8.encode text ∧ tokenize text = .ok tokens ∧
      includeTarget tokens = .ok target := by
  rw [lineTarget] at h
  cases hd : Utf8.decode bytes with
  | error flaw => simp [hd] at h
  | ok text =>
    cases ht : tokenize text with
    | error e => simp [hd, ht] at h
    | ok tokens =>
      simp only [hd, ht] at h
      exact ⟨text, tokens, Utf8.decode_eq_ok_iff.mp hd, ht, h⟩

theorem lineTarget_eq_error_iff {file : String} {bytes : List UInt8} {fault : Fault} :
    lineTarget file bytes = .error fault ↔
      (∃ flaw, Utf8.decode bytes = .error flaw ∧ fault = .readFailed file flaw.message) ∨
        ∃ text, bytes = Utf8.encode text ∧
          ((∃ e, tokenize text = .error e ∧ fault = .ofQuoteError e) ∨
            ∃ tokens, tokenize text = .ok tokens ∧ includeTarget tokens = .error fault) := by
  constructor
  · intro h
    rw [lineTarget] at h
    cases hd : Utf8.decode bytes with
    | error flaw =>
      rw [hd] at h
      exact .inl ⟨flaw, rfl, (Except.error.inj h).symm⟩
    | ok text =>
      refine .inr ⟨text, Utf8.decode_eq_ok_iff.mp hd, ?_⟩
      cases ht : tokenize text with
      | error e =>
        simp only [hd, ht] at h
        exact .inl ⟨e, rfl, (Except.error.inj h).symm⟩
      | ok tokens =>
        simp only [hd, ht] at h
        exact .inr ⟨tokens, rfl, h⟩
  · rintro (⟨flaw, hd, rfl⟩ | ⟨text, rfl, ⟨e, ht, rfl⟩ | ⟨tokens, ht, htarget⟩⟩)
    · simp only [lineTarget, hd]
    · simp only [lineTarget, Utf8.decode_encode, ht]
    · rw [lineTarget_encode file ht, htarget]

/-- What is left to do for `file`, whose lines from `number` on are `rest`, while the files `above`
wait for it. -/
def expandRest (disk : Disk) (limit : Nat) (file : String) (above : List String) (number : Nat)
    (rest : List (List UInt8)) : Expansion :=
  expandLines (expandInclude disk limit (limit - above.length) ((file :: above).map disk.key)) file
    number rest

section Rest

variable {disk : Disk} {limit : Nat} {file : String} {above : List String} {bytes : List UInt8}

theorem expandInclude_of_admits {path : String} {data : List UInt8} (site : Line)
    (h : disk.Admits limit (file :: above) path data) :
    expandInclude disk limit (limit - above.length) ((file :: above).map disk.key) site path =
      (expandRest disk limit path (file :: above) 1 (fileLines data)).opening := by
  have hlevels : limit - above.length = limit - (file :: above).length + 1 := by
    have := h.shallow
    simp only [List.length_cons] at this ⊢
    omega
  have hholds : (disk.look path).contents = .ok (.bytes data) := h.holds
  rw [hlevels, expandInclude, if_neg h.fresh, expandFile, hholds]
  rfl

theorem expandInclude_of_cycle {active : List String} {path : String} (levels : Nat) (site : Line)
    (h : disk.key path ∈ active) :
    expandInclude disk limit levels active site path =
      .stopped (.inclusionCycle path) (some site) := by
  cases levels with
  | zero => rw [expandInclude, if_pos h]
  | succ levels => rw [expandInclude, if_pos h]

theorem expandInclude_of_refuses {path : String} {site : Line} {stop : Stop}
    (h : disk.Refuses limit (file :: above) site path stop) :
    (expandInclude disk limit (limit - above.length) ((file :: above).map disk.key) site path).lines
        = [] ∧
      (expandInclude disk limit (limit - above.length) ((file :: above).map disk.key) site path).stop
        = some stop := by
  cases h with
  | cycle hkey =>
    rw [expandInclude_of_cycle _ _ hkey]
    exact ⟨rfl, rfl⟩
  | deep hkey hlen =>
    have hlevels : limit - above.length = 0 := by
      simp only [List.length_cons] at hlen
      omega
    rw [hlevels, expandInclude, if_neg hkey]
    exact ⟨rfl, rfl⟩
  | closed hkey hlen hc =>
    have hlevels : limit - above.length = limit - (file :: above).length + 1 := by
      simp only [List.length_cons] at hlen ⊢
      omega
    rw [hlevels, expandInclude, if_neg hkey, expandFile, hc]
    exact ⟨rfl, rfl⟩
  | unreadable hkey hlen hc =>
    have hlevels : limit - above.length = limit - (file :: above).length + 1 := by
      simp only [List.length_cons] at hlen ⊢
      omega
    rw [hlevels, expandInclude, if_neg hkey, expandFile, hc]
    exact ⟨rfl, rfl⟩

variable (number : Nat) (rest : List (List UInt8))

theorem expandRest_of_plain {text : String} {tokens : List String} (ht : tokenize text = .ok tokens)
    (hword : tokens.head? ≠ some includeWord) :
    expandRest disk limit file above number (Utf8.encode text :: rest) =
      (Expansion.ofLine ⟨file, number, text⟩).andThen fun _ =>
        expandRest disk limit file above (number + 1) rest := by
  rw [expandRest, expandLines, lineTarget_plain file ht hword, Utf8.decodeLossy_encode]
  rfl

variable {number} in
theorem Faulty.expandRest_eq {stop : Stop} (h : Faulty disk limit file above number bytes stop) :
    (expandRest disk limit file above number (bytes :: rest)).lines =
        [⟨file, number, Utf8.decodeLossy bytes⟩] ∧
      (expandRest disk limit file above number (bytes :: rest)).stop = some stop := by
  rw [expandRest, expandLines, Expansion.ofLine_andThen]
  cases h with
  | malformed ht =>
    rw [ht]
    exact ⟨rfl, rfl⟩
  | refused ht hr =>
    obtain ⟨hlines, hstop⟩ := expandInclude_of_refuses hr
    rw [ht]
    simp only [Expansion.andThen_of_stopped hstop, hlines, hstop, and_self]

theorem expandRest_of_admits {text path : String} {data : List UInt8}
    (ht : tokenize text = .ok [includeWord, path]) (ha : disk.Admits limit (file :: above) path data) :
    expandRest disk limit file above number (Utf8.encode text :: rest) =
      (Expansion.ofLine ⟨file, number, text⟩).andThen fun _ =>
        (expandRest disk limit path (file :: above) 1 (fileLines data)).opening.andThen fun _ =>
          expandRest disk limit file above (number + 1) rest := by
  rw [expandRest, expandLines, lineTarget_include file ht, Utf8.decodeLossy_encode]
  simp only [expandInclude_of_admits _ ha]
  rfl

end Rest

theorem line_cases (disk : Disk) (limit : Nat) (file : String) (above : List String) (number : Nat)
    (bytes : List UInt8) :
    (∃ stop, Faulty disk limit file above number bytes stop) ∨
      (∃ text tokens, bytes = Utf8.encode text ∧ tokenize text = .ok tokens ∧
        tokens.head? ≠ some includeWord) ∨
      ∃ text path data, bytes = Utf8.encode text ∧ tokenize text = .ok [includeWord, path] ∧
        disk.Admits limit (file :: above) path data := by
  cases ht : lineTarget file bytes with
  | error fault => exact .inl ⟨_, .malformed ht⟩
  | ok target =>
    obtain ⟨text, tokens, rfl, htok, htarget⟩ := exists_tokens_of_lineTarget ht
    cases target with
    | none => exact .inr (.inl ⟨text, tokens, rfl, htok, includeTarget_eq_none_iff.mp htarget⟩)
    | some path =>
      obtain rfl := includeTarget_eq_some_iff.mp htarget
      rcases disk.admits_or_refuses limit (file :: above)
        ⟨file, number, Utf8.decodeLossy (Utf8.encode text)⟩ path with ⟨data, ha⟩ | ⟨stop, hr⟩
      · exact .inr (.inr ⟨text, path, data, rfl, htok, ha⟩)
      · exact .inl ⟨stop, .refused ht hr⟩

/-- Induction along the work on lines: over the rest of the file, and over the file of an include
that is carried out, which has one level less to go. -/
theorem expandRest_induction (disk : Disk) (limit : Nat)
    {motive : String → List String → Nat → List (List UInt8) → Prop}
    (done : ∀ file above number, motive file above number [])
    (faulty : ∀ file above number bytes rest stop, Faulty disk limit file above number bytes stop →
      motive file above number (bytes :: rest))
    (plain : ∀ file above number text tokens rest, tokenize text = .ok tokens →
      tokens.head? ≠ some includeWord → motive file above (number + 1) rest →
      motive file above number (Utf8.encode text :: rest))
    (included : ∀ file above number text path data rest, tokenize text = .ok [includeWord, path] →
      disk.Admits limit (file :: above) path data → motive path (file :: above) 1 (fileLines data) →
      motive file above (number + 1) rest → motive file above number (Utf8.encode text :: rest))
    (file : String) (above : List String) (number : Nat) (rest : List (List UInt8)) :
    motive file above number rest := by
  -- Only an include uses up a level, so for one number of levels the induction is on the lines.
  induction hlevels : limit - above.length using Nat.strong_induction_on
    generalizing file above number rest with
  | _ levels ihLevels =>
    induction rest generalizing number with
    | nil => exact done file above number
    | cons bytes rest ihRest =>
      rcases line_cases disk limit file above number bytes with
        ⟨stop, hf⟩ | ⟨text, tokens, rfl, ht, hword⟩ | ⟨text, path, data, rfl, ht, ha⟩
      · exact faulty file above number bytes rest stop hf
      · exact plain file above number text tokens rest ht hword (ihRest (number + 1))
      · have hshallow := ha.shallow
        have hless : limit - (file :: above).length < levels := by
          simp only [List.length_cons] at hshallow ⊢
          omega
        have hinner := ihLevels _ hless path (file :: above) 1 (fileLines data) rfl
        exact included file above number text path data rest ht ha hinner (ihRest (number + 1))

section Correspondence

variable {disk : Disk} {limit : Nat} {file : String} {above : List String} {number : Nat}
  {rest : List (List UInt8)}

theorem Spliced.expandRest_eq {lines : List Line}
    (h : Spliced disk limit file above number rest lines) :
    expandRest disk limit file above number rest =
      ⟨lines, lines.countP Line.isInclude, none⟩ := by
  induction h with
  | done => rfl
  | @plain file above number text tokens rest lines ht hword _ ih =>
    rw [expandRest_of_plain number rest ht hword, Expansion.ofLine_andThen, ih,
      List.countP_cons_of_neg (mt (isInclude_iff ht).mp hword)]
  | @included file above number text path data rest inner lines ht ha _ _ ihInner ihRest =>
    rw [expandRest_of_admits number rest ht ha, Expansion.ofLine_andThen,
      Expansion.andThen_of_complete (by rw [ihInner]; rfl), ihInner, ihRest,
      List.countP_cons_of_pos ((isInclude_iff ht).mpr rfl), List.countP_append]
    simp only [Expansion.opening, Expansion.mk.injEq, and_true, true_and]
    omega

theorem spliced_of_expandRest (h : (expandRest disk limit file above number rest).stop = none) :
    Spliced disk limit file above number rest
      (expandRest disk limit file above number rest).lines := by
  induction file, above, number, rest using expandRest_induction disk limit with
  | done => exact .done
  | faulty file above number bytes rest stop hf =>
    rw [(hf.expandRest_eq rest).2] at h
    cases h
  | plain file above number text tokens rest ht hword ih =>
    rw [expandRest_of_plain number rest ht hword, Expansion.ofLine_andThen] at h ⊢
    exact .plain ht hword (ih h)
  | included file above number text path data rest ht ha ihInner ihRest =>
    rw [expandRest_of_admits number rest ht ha, Expansion.ofLine_andThen] at h ⊢
    cases hi : (expandRest disk limit path (file :: above) 1 (fileLines data)).opening.stop with
    | some stop =>
      rw [Expansion.andThen_of_stopped hi, hi] at h
      cases h
    | none =>
      rw [Expansion.andThen_of_complete hi] at h ⊢
      exact .included ht ha (ihInner hi) (ihRest h)

end Correspondence

theorem expand_of_holds {disk : Disk} {limit : Nat} {root : String} {data : List UInt8}
    (h : disk.Holds root data) :
    expand disk limit root = (expandRest disk limit root [] 1 (fileLines data)).opening := by
  have hholds : (disk.look root).contents = .ok (.bytes data) := h
  rw [expand, expandFile, hholds]
  rfl

theorem exists_holds_or_stop (disk : Disk) (limit : Nat) (root : String) :
    (∃ data, disk.Holds root data) ∨
      ∃ obstacle : Obstacle, (expand disk limit root).lines = [] ∧
        ((expand disk limit root).stop = some ⟨.cannotOpen root obstacle.message, none⟩ ∨
          (expand disk limit root).stop = some ⟨.readFailed root obstacle.message, none⟩) := by
  cases hc : (disk.look root).contents with
  | error obstacle =>
    rw [expand, expandFile, hc]
    exact .inr ⟨obstacle, rfl, .inl rfl⟩
  | ok contents =>
    cases contents with
    | bytes data => exact .inl ⟨data, hc⟩
    | unreadable obstacle =>
      rw [expand, expandFile, hc]
      exact .inr ⟨obstacle, rfl, .inr rfl⟩

theorem Disk.Expands.expand_eq {disk : Disk} {limit : Nat} {root : String} {lines : List Line}
    (h : disk.Expands limit root lines) :
    expand disk limit root = ⟨lines, lines.countP Line.isInclude + 1, none⟩ := by
  obtain ⟨data, hholds, hspliced⟩ := h
  rw [expand_of_holds hholds, hspliced.expandRest_eq]
  rfl

theorem expands_of_expand {disk : Disk} {limit : Nat} {root : String}
    (h : (expand disk limit root).stop = none) :
    disk.Expands limit root (expand disk limit root).lines := by
  rcases exists_holds_or_stop disk limit root with ⟨data, hholds⟩ | ⟨obstacle, -, hstop | hstop⟩
  · rw [expand_of_holds hholds] at h ⊢
    exact ⟨data, hholds, spliced_of_expandRest h⟩
  · rw [hstop] at h
    cases h
  · rw [hstop] at h
    cases h

/-- A description loads exactly when it has an expansion. The lines loaded are then that expansion,
at whose start the session stands, and one file was opened for the root and each include line. -/
theorem load_iff_expands (s : Session) (disk : Disk) (root : String) :
    ((s.load disk root).1 = .ok () ↔
        ∃ lines, disk.Expands s.settings.depthLimit.toNat root lines) ∧
      ∀ lines, disk.Expands s.settings.depthLimit.toNat root lines →
        (s.load disk root).2.lines = lines ∧
        (s.load disk root).2.filesOpened = 1 + lines.countP Line.isInclude ∧
        (s.load disk root).2.cursor = 0 ∧ (s.load disk root).2.status = .ok := by
  rw [s.load_eq_ok_iff]
  refine ⟨⟨fun h => ⟨_, expands_of_expand h⟩, ?_⟩, ?_⟩
  · rintro ⟨lines, h⟩
    rw [h.expand_eq]
  · intro lines h
    have he := h.expand_eq
    rw [s.load_of_complete disk root (by rw [he]), he, Session.holding_lines]
    exact ⟨rfl, Nat.add_comm _ _, rfl, rfl⟩

/-- A robot whose two legs are the same file, included on its first and on its last line. -/
def twoLegs : Disk :=
  .ofTexts [("robot.dd", "include leg.dd\n\nbus can0\ninclude \"leg.dd\""),
    ("leg.dd", "begin motor\r\nend motor\r\n")]

def twoLegsLines : List Line :=
  [⟨"robot.dd", 1, "include leg.dd"⟩, ⟨"leg.dd", 1, "begin motor"⟩, ⟨"leg.dd", 2, "end motor"⟩,
    ⟨"robot.dd", 2, ""⟩, ⟨"robot.dd", 3, "bus can0"⟩, ⟨"robot.dd", 4, "include \"leg.dd\""⟩,
    ⟨"leg.dd", 1, "begin motor"⟩, ⟨"leg.dd", 2, "end motor"⟩]

theorem load_twoLegs :
    twoLegs.Expands 64 "robot.dd" twoLegsLines ∧
      ((Session.new {}).load twoLegs "robot.dd").2.lines = twoLegsLines ∧
      ((Session.new {}).load twoLegs "robot.dd").2.filesOpened = 3 := by
  have hlines : (expand twoLegs 64 "robot.dd").lines = twoLegsLines := by decide +kernel
  have hexpands : twoLegs.Expands 64 "robot.dd" twoLegsLines :=
    hlines ▸ expands_of_expand (by decide +kernel)
  obtain ⟨hl, hf, -, -⟩ := (load_iff_expands (.new {}) twoLegs "robot.dd").2 twoLegsLines hexpands
  have hcount : twoLegsLines.countP Line.isInclude = 2 := by decide +kernel
  rw [hcount] at hf
  exact ⟨hexpands, hl, hf⟩

end DeviceDescription
