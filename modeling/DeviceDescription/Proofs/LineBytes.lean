import DeviceDescription.Proofs.IllFormed
import DeviceDescription.Proofs.Reach

/-!
# The bytes of a line

A load that comes to a line decodes its bytes twice: strictly, to go on with the text or to fail,
and lossily, for the line that it keeps. If the bytes are a text the line has that text, and no
failed reading is blamed on it. If they are not the load fails there; the reason names the first
ill-formed part, and the line shows the text before it and then U+FFFD, as it shows every character
and every ill-formed part behind.
-/

namespace DeviceDescription

section Faulty

variable {disk : Disk} {limit : Nat} {root : String} {file : String} {above : List String}
  {number : Nat} {bytes : List UInt8}

theorem includeTarget_ne_readFailed {tokens : List String} {path reason : String} :
    includeTarget tokens ≠ .error (.readFailed path reason) := by
  intro h
  rcases includeTarget_eq_error_iff.mp h with ⟨-, hfault⟩ | ⟨_, _, _, -, hfault⟩ <;> cases hfault

theorem Fault.ofQuoteError_ne_readFailed (e : QuoteError) (path reason : String) :
    Fault.ofQuoteError e ≠ .readFailed path reason := by
  cases e <;> exact Fault.noConfusion

/-- A failed reading that is blamed on a line is that of bytes that are no text. -/
theorem Faulty.decode_of_readFailed {path reason : String} {line : Line}
    (h : Faulty disk limit file above number bytes ⟨.readFailed path reason, some line⟩) :
    line.file = file ∧ line.number = number ∧ ∃ flaw, Utf8.decode bytes = .error flaw := by
  generalize hstop : (⟨.readFailed path reason, some line⟩ : Stop) = stop at h
  cases h with
  | malformed htarget =>
    obtain ⟨rfl, hsite⟩ := Stop.mk.inj hstop
    obtain rfl := Option.some.inj hsite
    rcases lineTarget_eq_error_iff.mp htarget with
      ⟨flaw, hd, -⟩ | ⟨text, -, ⟨e, -, hfault⟩ | ⟨tokens, -, hfault⟩⟩
    · exact ⟨rfl, rfl, flaw, hd⟩
    · exact absurd hfault.symm (Fault.ofQuoteError_ne_readFailed e path reason)
    · exact absurd hfault includeTarget_ne_readFailed
  | refused _ hrefuses => cases hrefuses <;> cases hstop

/-- Wherever a reading fails that is blamed on a line, the bytes of that line are no text. -/
theorem exists_reached_of_readFailed {path reason : String} {line : Line}
    (h : (expand disk limit root).stop = some ⟨.readFailed path reason, some line⟩) :
    ∃ before above bytes rest flaw,
      Reached disk limit root before line.file above line.number (bytes :: rest) ∧
        Utf8.decode bytes = .error flaw := by
  rcases expand_stop h with ⟨_, hroot⟩ | ⟨_, hroot⟩ |
    ⟨before, file, above, number, bytes, rest, hreached, hfaulty⟩
  · cases hroot
  · cases hroot
  · obtain ⟨rfl, rfl, flaw, hd⟩ := hfaulty.decode_of_readFailed
    exact ⟨before, above, bytes, rest, flaw, hreached, hd⟩

end Faulty

/-- The lines that a load keeps are those that it comes to, each under the file and number of its
bytes. If these are a text it is the text of the line, and no failed reading is blamed on the line.
If they are none the load fails on the line with a reason that names the first ill-formed part, at
the end of the longest beginning that is a text; the line has this text, then U+FFFD, and all in all
each character of the bytes and one U+FFFD for each ill-formed part. -/
theorem load_decodes_lines (s : Session) (disk : Disk) (root : String) :
    (∀ before line, before ++ [line] <+: (s.load disk root).2.lines → ∃ above bytes rest,
      Reached disk s.settings.depthLimit.toNat root before line.file above line.number
        (bytes :: rest)) ∧
    ∀ before file above number bytes rest,
      Reached disk s.settings.depthLimit.toNat root before file above number (bytes :: rest) →
      ∃ line, before ++ [line] <+: (s.load disk root).2.lines ∧
        line.file = file ∧ line.number = number ∧
        (∃ data, disk.Holds file data ∧ (fileLines data)[number - 1]? = some bytes) ∧
        (∀ text, bytes = Utf8.encode text → line.text = text ∧
          ∀ d path reason, (s.load disk root).1 = .error d → d.site = some line →
            d.fault ≠ .readFailed path reason) ∧
        ((∀ text, bytes ≠ Utf8.encode text) →
          ∃ text part tail flaw, Utf8.Breaks bytes text part tail flaw ∧
            (∀ longer, Utf8.encode longer <+: bytes →
              (Utf8.encode longer).length ≤ flaw.index) ∧
            s.FailsAt disk root before line (.readFailed file flaw.message) ∧
            text.toList ++ ['\ufffd'] <+: line.text.toList ∧
            Utf8.Shows bytes line.text.toList) := by
  constructor
  · intro before line hbegun
    rw [s.load_lines] at hbegun
    obtain ⟨above, bytes, rest, -, hreached⟩ := prefix_lines_iff_reached.mp hbegun
    exact ⟨above, bytes, rest, hreached⟩
  · intro before file above number bytes rest h
    refine ⟨⟨file, number, Utf8.decodeLossy bytes⟩, ?_, rfl, rfl, h.exists_fileLine, ?_, ?_⟩
    · rw [s.load_lines]
      exact h.lines_prefix
    · rintro text rfl
      refine ⟨Utf8.decodeLossy_encode text, ?_⟩
      intro d path reason hload hsite hfault
      have hstop := s.exists_stop_of_load disk root hload
      rw [hsite, hfault] at hstop
      obtain ⟨_, _, bytes, _, flaw, hreached, hd⟩ := exists_reached_of_readFailed hstop
      rw [← h.bytes_unique hreached, Utf8.decode_encode] at hd
      cases hd
    · intro hno
      cases hd : Utf8.decode bytes with
      | ok text => exact absurd (Utf8.decode_eq_ok_iff.mp hd) (hno text)
      | error flaw =>
        obtain ⟨text, part, tail, hbreaks⟩ := Utf8.decode_eq_error_iff.mp hd
        refine ⟨text, part, tail, flaw, hbreaks, fun _ => hbreaks.length_encode_le, ?_,
          hbreaks.shown_prefix, Utf8.decodeLossy_eq_iff.mp rfl⟩
        rw [s.failsAt_iff disk root]
        exact (h.stops_iff _).mpr
          (.malformed (lineTarget_eq_error_iff.mpr (.inl ⟨flaw, hd, rfl⟩)))

/-- The disk with a file of any bytes at `path`. -/
def Disk.withBytes (disk : Disk) (path : String) (data : List UInt8) : Disk :=
  ⟨fun p => if p = path then ⟨some p, .ok (.bytes data)⟩ else disk.look p⟩

/-- A gain in which a character of three bytes lacks the last, and a surrogate is encoded. -/
def garbledGain : List UInt8 := Utf8.encode "kp ü" ++ [0xe2, 0x82, 0x34, 0xed, 0xa0, 0x80, 0x30]

def garbledGains : List UInt8 := Utf8.encode "kd 2.0\r\n" ++ garbledGain ++ Utf8.encode "\r\nki 0.1"

/-- A robot that includes gains of which the second cannot be decoded. -/
def garbled : Disk :=
  (Disk.ofTexts [("robot.dd", "include gains.dd\n")]).withBytes "gains.dd" garbledGains

def garbledBefore : List Line :=
  [⟨"robot.dd", 1, "include gains.dd"⟩, ⟨"gains.dd", 1, "kd 2.0"⟩]

theorem garbled_reached :
    Reached garbled 64 "robot.dd" garbledBefore "gains.dd" ["robot.dd"] 2
      [garbledGain, Utf8.encode "ki 0.1"] := by
  have hroot : garbled.Holds "robot.dd" (Utf8.encode "include gains.dd\n") := by
    simp only [garbled, Disk.withBytes, Disk.Holds, Disk.ofTexts]
    rfl
  have hlines : fileLines (Utf8.encode "include gains.dd\n") =
      [Utf8.encode "include gains.dd"] := by decide +kernel
  have hgains : fileLines garbledGains =
      [Utf8.encode "kd 2.0", garbledGain, Utf8.encode "ki 0.1"] := by decide +kernel
  have hfirst : Reached garbled 64 "robot.dd" [] "robot.dd" [] 1 [Utf8.encode "include gains.dd"] :=
    hlines ▸ .root hroot
  have hadmits : garbled.Admits 64 ["robot.dd"] "gains.dd" garbledGains :=
    ⟨by decide +kernel, by decide, rfl⟩
  have hinner := Reached.enter hfirst (by decide +kernel) hadmits
  rw [hgains] at hinner
  exact @Reached.plain _ _ _ _ _ _ _ _ ["kd", "2.0"] _ hinner (by decide +kernel)
    (by decide +kernel)

theorem load_garbled :
    Reached garbled 64 "robot.dd" garbledBefore "gains.dd" ["robot.dd"] 2
        [garbledGain, Utf8.encode "ki 0.1"] ∧
      (∀ text, garbledGain ≠ Utf8.encode text) ∧
      ∃ text part tail flaw, Utf8.Breaks garbledGain text part tail flaw ∧
        (∀ longer, Utf8.encode longer <+: garbledGain → (Utf8.encode longer).length ≤ flaw.index) ∧
        (Session.new {}).FailsAt garbled "robot.dd" garbledBefore
          ⟨"gains.dd", 2, "kp ü\ufffd4\ufffd\ufffd\ufffd0"⟩ (.readFailed "gains.dd" flaw.message) ∧
        flaw.message = "invalid utf-8 sequence of 2 bytes from index 5" := by
  have hdecode : Utf8.decode garbledGain = .error ⟨5, some 2⟩ := by decide +kernel
  have hno : ∀ text, garbledGain ≠ Utf8.encode text := by
    intro text htext
    rw [htext, Utf8.decode_encode] at hdecode
    cases hdecode
  have hall : ((Session.new {}).load garbled "robot.dd").2.lines =
      garbledBefore ++ [⟨"gains.dd", 2, "kp ü\ufffd4\ufffd\ufffd\ufffd0"⟩] := by decide +kernel
  obtain ⟨line, hbegun, -, -, -, -, hfails⟩ :=
    (load_decodes_lines (.new {}) garbled "robot.dd").2 _ _ _ _ _ _ garbled_reached
  obtain ⟨text, part, tail, flaw, hbreaks, hlongest, hfailsAt, -, -⟩ := hfails hno
  rw [hall, List.prefix_append_right_inj] at hbegun
  obtain ⟨rfl, -⟩ := List.cons.inj (hbegun.eq_of_length rfl)
  obtain rfl : flaw = ⟨5, some 2⟩ :=
    Except.error.inj (hbreaks.decode_eq.symm.trans hdecode)
  exact ⟨garbled_reached, hno, text, part, tail, _, hbreaks, hlongest, hfailsAt, rfl⟩

end DeviceDescription
