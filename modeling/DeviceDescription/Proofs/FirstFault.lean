import DeviceDescription.Proofs.Reach

/-!
# The first fault

A load that fails has taken over the lines up to the one at fault, which is the one that determines
the fault. The lines before it were in order: each is a text that is cut into tokens, and the file
of each include among them was opened, and either its expansion follows in full or it is one of
those that are still being expanded. The one failure that this does not hold of is that of a file
which opens and then cannot be read.
-/

namespace DeviceDescription

/-- The fault is that a file opens and cannot be read. -/
def Disk.IsReadError (disk : Disk) (fault : Fault) : Prop :=
  ∃ path obstacle, (disk.look path).contents = .ok (.unreadable obstacle) ∧
    fault = .readFailed path obstacle.message

/-- The fault of a line that stands below the files `chain`, in the order of the checks: it is no
text, it has a quote out of place, it is an include line with no or too many arguments, or the file
it includes is being expanded, is too deep, or does not open. -/
inductive Blamed (disk : Disk) (limit : Nat) (chain : List String) (line : Line)
    (bytes : List UInt8) : Fault → Prop
  | notText {flaw} : Utf8.decode bytes = .error flaw →
      Blamed disk limit chain line bytes (.readFailed line.file flaw.message)
  | quote {e} : bytes = Utf8.encode line.text → tokenize line.text = .error e →
      Blamed disk limit chain line bytes (.ofQuoteError e)
  | noArgument : bytes = Utf8.encode line.text → tokenize line.text = .ok [includeWord] →
      Blamed disk limit chain line bytes (.missingArgument includeWord)
  | furtherArgument {path extra more} : bytes = Utf8.encode line.text →
      tokenize line.text = .ok (includeWord :: path :: extra :: more) →
      Blamed disk limit chain line bytes (.extraArgument includeWord extra)
  | cycle {path} : bytes = Utf8.encode line.text → tokenize line.text = .ok [includeWord, path] →
      disk.key path ∈ chain.map disk.key →
      Blamed disk limit chain line bytes (.inclusionCycle path)
  | deep {path} : bytes = Utf8.encode line.text → tokenize line.text = .ok [includeWord, path] →
      disk.key path ∉ chain.map disk.key → limit < chain.length →
      Blamed disk limit chain line bytes (.includeTooDeep path limit)
  | closed {path obstacle} : bytes = Utf8.encode line.text →
      tokenize line.text = .ok [includeWord, path] → disk.key path ∉ chain.map disk.key →
      chain.length ≤ limit → (disk.look path).contents = .error obstacle →
      Blamed disk limit chain line bytes (.cannotOpen path obstacle.message)

/-- The line, which the expansion comes to after `past`, has been dealt with: it includes nothing,
or the lines after it begin with the whole expansion of the file that it includes. -/
inductive Dealt (disk : Disk) (limit : Nat) (root : String) (past : List Line) (line : Line) :
    List Line → Prop
  | plain {above rest tokens later} :
      Reached disk limit root past line.file above line.number (Utf8.encode line.text :: rest) →
      tokenize line.text = .ok tokens → tokens.head? ≠ some includeWord →
      Dealt disk limit root past line later
  | included {above rest path data inner later} :
      Reached disk limit root past line.file above line.number (Utf8.encode line.text :: rest) →
      tokenize line.text = .ok [includeWord, path] →
      disk.Admits limit (line.file :: above) path data →
      Spliced disk limit path (line.file :: above) 1 (fileLines data) inner →
      Dealt disk limit root past line (inner ++ later)

/-- The line, which the expansion comes to after `past`, includes a file that was opened and is
still being expanded, as one of those in `chain`. -/
def Pending (disk : Disk) (limit : Nat) (root : String) (past : List Line) (line : Line)
    (chain : List String) : Prop :=
  ∃ above rest path data,
    Reached disk limit root past line.file above line.number (Utf8.encode line.text :: rest) ∧
      tokenize line.text = .ok [includeWord, path] ∧
      disk.Admits limit (line.file :: above) path data ∧ path :: line.file :: above <:+ chain

section Fault

variable {disk : Disk} {limit : Nat} {file : String} {above : List String} {number : Nat}
  {bytes : List UInt8} {fault : Fault}

theorem Blamed.faulty {text : String}
    (h : Blamed disk limit (file :: above) ⟨file, number, text⟩ bytes fault)
    (htext : text = Utf8.decodeLossy bytes) :
    Faulty disk limit file above number bytes ⟨fault, some ⟨file, number, text⟩⟩ := by
  subst htext
  have htarget {tokens : List String} (hbytes : bytes = Utf8.encode (Utf8.decodeLossy bytes))
      (ht : tokenize (Utf8.decodeLossy bytes) = .ok tokens) :
      lineTarget file bytes = includeTarget tokens := by
    rw [hbytes]
    exact lineTarget_encode file ht
  cases h with
  | notText hd => exact .malformed (lineTarget_eq_error_iff.mpr (.inl ⟨_, hd, rfl⟩))
  | quote hbytes ht =>
    exact .malformed (lineTarget_eq_error_iff.mpr (.inr ⟨_, hbytes, .inl ⟨_, ht, rfl⟩⟩))
  | noArgument hbytes ht =>
    refine .malformed ((htarget hbytes ht).trans ?_)
    exact includeTarget_eq_error_iff.mpr (.inl ⟨rfl, rfl⟩)
  | furtherArgument hbytes ht =>
    refine .malformed ((htarget hbytes ht).trans ?_)
    exact includeTarget_eq_error_iff.mpr (.inr ⟨_, _, _, rfl, rfl⟩)
  | cycle hbytes ht hkey =>
    have hpath := (htarget hbytes ht).trans (includeTarget_eq_some_iff.mpr rfl)
    exact .refused hpath (.cycle hkey)
  | deep hbytes ht hkey hlen =>
    have hpath := (htarget hbytes ht).trans (includeTarget_eq_some_iff.mpr rfl)
    exact .refused hpath (.deep hkey hlen)
  | closed hbytes ht hkey hlen hc =>
    have hpath := (htarget hbytes ht).trans (includeTarget_eq_some_iff.mpr rfl)
    exact .refused hpath (.closed hkey hlen hc)

theorem Faulty.blamed {site : Option Line}
    (h : Faulty disk limit file above number bytes ⟨fault, site⟩)
    (hread : ¬ disk.IsReadError fault) :
    site = some ⟨file, number, Utf8.decodeLossy bytes⟩ ∧
      Blamed disk limit (file :: above) ⟨file, number, Utf8.decodeLossy bytes⟩ bytes fault := by
  generalize hstop : (⟨fault, site⟩ : Stop) = stop at h
  cases h with
  | malformed he =>
    obtain ⟨rfl, rfl⟩ := Stop.mk.inj hstop
    refine ⟨rfl, ?_⟩
    rcases lineTarget_eq_error_iff.mp he with
      ⟨flaw, hd, rfl⟩ | ⟨text, rfl, ⟨e, ht, rfl⟩ | ⟨tokens, ht, htarget⟩⟩
    · exact .notText hd
    · rw [Utf8.decodeLossy_encode]
      exact .quote rfl ht
    · rw [Utf8.decodeLossy_encode]
      rcases includeTarget_eq_error_iff.mp htarget with ⟨rfl, rfl⟩ | ⟨path, extra, more, rfl, rfl⟩
      · exact .noArgument rfl ht
      · exact .furtherArgument rfl ht
  | refused he hr =>
    obtain ⟨text, tokens, rfl, ht, hsome⟩ := exists_tokens_of_lineTarget he
    obtain rfl := includeTarget_eq_some_iff.mp hsome
    rw [Utf8.decodeLossy_encode] at hr ⊢
    cases hr with
    | cycle hkey =>
      obtain ⟨rfl, rfl⟩ := Stop.mk.inj hstop
      exact ⟨rfl, .cycle rfl ht hkey⟩
    | deep hkey hlen =>
      obtain ⟨rfl, rfl⟩ := Stop.mk.inj hstop
      exact ⟨rfl, .deep rfl ht hkey hlen⟩
    | closed hkey hlen hc =>
      obtain ⟨rfl, rfl⟩ := Stop.mk.inj hstop
      exact ⟨rfl, .closed rfl ht hkey hlen hc⟩
    | unreadable _ _ hc =>
      obtain ⟨rfl, -⟩ := Stop.mk.inj hstop
      exact absurd ⟨_, _, hc, rfl⟩ hread

end Fault

section Before

variable {disk : Disk} {limit : Nat} {root : String} {before past later : List Line} {line : Line}
  {file : String} {above : List String} {number : Nat} {rest : List (List UInt8)}

theorem part_of_concat_eq {xs : List Line} {x : Line} (h : xs ++ [x] = past ++ line :: later) :
    (∃ later', xs = past ++ line :: later' ∧ later = later' ++ [x]) ∨
      xs = past ∧ x = line ∧ later = [] := by
  rcases part_of_append_eq h with hin | ⟨past', rfl, hlast⟩
  · exact .inl hin
  · rcases List.singleton_eq_append_iff.mp hlast with ⟨rfl, hl⟩ | ⟨-, hl⟩
    · obtain ⟨rfl, hlater⟩ := List.cons.inj hl
      exact .inr ⟨(List.append_nil _).symm, rfl, hlater⟩
    · cases hl

theorem Dealt.append (h : Dealt disk limit root past line later) (more : List Line) :
    Dealt disk limit root past line (later ++ more) := by
  cases h with
  | plain h ht hword => exact .plain h ht hword
  | included h ht ha hinner =>
    rw [List.append_assoc]
    exact .included h ht ha hinner

/-- In a complete expansion every line has been dealt with. -/
theorem Spliced.dealt {lines : List Line}
    (hs : Spliced disk limit file above number rest lines)
    (h : Reached disk limit root before file above number rest)
    (hlines : lines = past ++ line :: later) :
    Dealt disk limit root (before ++ past) line later := by
  induction hs generalizing before past later with
  | done => simp at hlines
  | @plain file above number text tokens rest lines ht hword _ ih =>
    cases past with
    | nil =>
      obtain ⟨rfl, -⟩ := List.cons.inj hlines
      rw [List.append_nil]
      exact .plain h ht hword
    | cons first past =>
      obtain ⟨rfl, hrest⟩ := List.cons.inj hlines
      rw [List.append_cons]
      exact ih (.plain h ht hword) hrest
  | @included file above number text path data rest inner lines ht ha hinner _ ihInner ihRest =>
    cases past with
    | nil =>
      obtain ⟨rfl, rfl⟩ := List.cons.inj hlines
      rw [List.append_nil]
      exact .included h ht ha hinner
    | cons first past =>
      obtain ⟨rfl, hrest⟩ := List.cons.inj hlines
      rcases part_of_append_eq hrest with ⟨later', hin, rfl⟩ | ⟨past', rfl, hafter⟩
      · rw [List.append_cons]
        exact (ihInner (.enter h ht ha) hin).append lines
      · have hnext := ihRest (.leave h ht ha hinner) hafter
        rwa [List.append_assoc] at hnext

/-- Every line before the one that an expansion comes to has been dealt with, or its include is
among those on the way there. -/
theorem Reached.dealt_or_pending (h : Reached disk limit root before file above number rest)
    (hbefore : before = past ++ line :: later) :
    Dealt disk limit root past line later ∨ Pending disk limit root past line (file :: above) := by
  induction h generalizing past later with
  | root => simp at hbefore
  | @plain before file above number text tokens rest h ht hword ih =>
    rcases part_of_concat_eq hbefore with ⟨later', hin, rfl⟩ | ⟨rfl, rfl, rfl⟩
    · exact (ih hin).imp_left fun hd => hd.append _
    · exact .inl (.plain h ht hword)
  | @enter before file above number text path data rest h ht ha ih =>
    rcases part_of_concat_eq hbefore with ⟨later', hin, rfl⟩ | ⟨rfl, rfl, rfl⟩
    · rcases ih hin with hd | ⟨above', rest', path', data', h', ht', ha', hchain⟩
      · exact .inl (hd.append _)
      · exact .inr ⟨above', rest', path', data', h', ht', ha', hchain.trans (List.suffix_cons _ _)⟩
    · exact .inr ⟨above, rest, path, data, h, ht, ha, List.suffix_rfl⟩
  | @leave before file above number text path data rest inner h ht ha hinner ih =>
    rcases part_of_append_eq hbefore with ⟨later', hin, rfl⟩ | ⟨past', rfl, hnew⟩
    · exact (ih hin).imp_left fun hd => hd.append _
    · refine .inl ?_
      cases past' with
      | nil =>
        obtain ⟨rfl, rfl⟩ := List.cons.inj hnew
        rw [List.append_nil, ← List.append_nil inner]
        exact .included h ht ha hinner
      | cons first past' =>
        obtain ⟨rfl, hin⟩ := List.cons.inj hnew
        rw [List.append_cons]
        exact hinner.dealt (.enter h ht ha) hin

end Before

/-- A load that fails after a line has been read, and not on a file that opens and cannot be read,
has taken over the lines up to one that it blames. That line determines the fault, and each line
before it has been dealt with or includes a file that is still being expanded. -/
theorem load_blames_last_line (s : Session) (disk : Disk) (root : String) (d : Diagnostic)
    (hload : (s.load disk root).1 = .error d) (hlines : (s.load disk root).2.lines ≠ [])
    (hread : ¬ disk.IsReadError d.fault) :
    ∃ before line above bytes rest,
      (s.load disk root).2.lines = before ++ [line] ∧ d.site = some line ∧
      line.text = Utf8.decodeLossy bytes ∧
      Reached disk s.settings.depthLimit.toNat root before line.file above line.number
        (bytes :: rest) ∧
      (∀ fault, Blamed disk s.settings.depthLimit.toNat (line.file :: above) line bytes fault ↔
        fault = d.fault) ∧
      ∀ past earlier later, before = past ++ earlier :: later →
        Dealt disk s.settings.depthLimit.toNat root past earlier later ∨
          Pending disk s.settings.depthLimit.toNat root past earlier (line.file :: above) := by
  have hstop := s.exists_stop_of_load disk root hload
  rw [s.load_lines] at hlines ⊢
  generalize s.settings.depthLimit.toNat = limit at hstop hlines ⊢
  rcases exists_holds_or_stop disk limit root with ⟨data, hholds⟩ | ⟨_, hnil, -⟩
  · have hpart := hstop
    rw [expand_of_holds hholds] at hpart
    obtain ⟨before, file, above, number, bytes, rest, hreached, hfaulty⟩ :=
      exists_faulty_of_expandRest (.root hholds) hpart
    obtain ⟨hsite, hblamed⟩ := hfaulty.blamed hread
    refine ⟨before, ⟨file, number, Utf8.decodeLossy bytes⟩, above, bytes, rest,
      ((hreached.stops_iff _).mpr hfaulty).2, hsite, rfl, hreached, ?_, ?_⟩
    · intro fault
      constructor
      · intro hother
        have hsame := ((hreached.stops_iff _).mpr (hother.faulty rfl)).1
        rw [hstop] at hsame
        exact (Stop.mk.inj (Option.some.inj hsame)).1.symm
      · rintro rfl
        exact hblamed
    · intro past earlier later hbefore
      exact hreached.dealt_or_pending hbefore
  · exact absurd hnil hlines

/-- A robot whose leg is in order and whose arm has a name without its closing quote. -/
def brokenArm : Disk :=
  .ofTexts [("robot.dd", "include leg.dd\ninclude arm.dd\nbus can0"), ("leg.dd", "kp 40.0"),
    ("arm.dd", "begin motor\nname \"left hip\nend motor")]

def brokenArmLines : List Line :=
  [⟨"robot.dd", 1, "include leg.dd"⟩, ⟨"leg.dd", 1, "kp 40.0"⟩,
    ⟨"robot.dd", 2, "include arm.dd"⟩, ⟨"arm.dd", 1, "begin motor"⟩]

def brokenArmDiagnostic : Diagnostic :=
  ⟨.unclosedQuote 6, some ⟨"arm.dd", 2, "name \"left hip"⟩, "unclosed quote opened at column 6"⟩

theorem load_brokenArm :
    ((Session.new {}).load brokenArm "robot.dd").1 = .error brokenArmDiagnostic ∧
      ((Session.new {}).load brokenArm "robot.dd").2.lines ≠ [] ∧
      ¬ brokenArm.IsReadError (.unclosedQuote 6) ∧
      ∃ above bytes, (∀ fault, Blamed brokenArm 64 ("arm.dd" :: above)
          ⟨"arm.dd", 2, "name \"left hip"⟩ bytes fault ↔ fault = .unclosedQuote 6) ∧
        ∀ past earlier later, brokenArmLines = past ++ earlier :: later →
          Dealt brokenArm 64 "robot.dd" past earlier later ∨
            Pending brokenArm 64 "robot.dd" past earlier ("arm.dd" :: above) := by
  have hload : ((Session.new {}).load brokenArm "robot.dd").1 = .error brokenArmDiagnostic := by
    decide +kernel
  have hall : ((Session.new {}).load brokenArm "robot.dd").2.lines =
      brokenArmLines ++ [⟨"arm.dd", 2, "name \"left hip"⟩] := by decide +kernel
  have hne : ((Session.new {}).load brokenArm "robot.dd").2.lines ≠ [] := by
    rw [hall]
    exact List.append_ne_nil_of_right_ne_nil _ (List.cons_ne_nil _ _)
  have hread : ¬ brokenArm.IsReadError (.unclosedQuote 6) := by
    rintro ⟨path, obstacle, -, hfault⟩
    cases hfault
  obtain ⟨before, line, above, bytes, rest, hlines, hsite, -, -, hblamed, hearlier⟩ :=
    load_blames_last_line (.new {}) brokenArm "robot.dd" brokenArmDiagnostic hload hne hread
  obtain rfl := Option.some.inj hsite
  obtain ⟨rfl, -⟩ := List.append_inj' (hall.symm.trans hlines) rfl
  exact ⟨hload, hne, hread, above, bytes, hblamed, hearlier⟩

end DeviceDescription
