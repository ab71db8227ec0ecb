import DeviceDescription.Proofs.OpenBlock
import DeviceDescription.Proofs.Walk

/-!
# One line at each call

After a load the calls of `next` deliver the visible lines one by one, and then the end of the
lines for good. The line delivered last is found again from the lines passed, without being kept, and
is the same line: the one the last signal came from, and the one a fault is blamed on.
-/

namespace DeviceDescription

namespace Session

/-- The lines of the description that are delivered, passed or ahead. -/
def visible (s : Session) : List Delivery := deliveries s.settings.showIncludes s.lines

def nexts (s : Session) : Nat → Session
  | 0 => s
  | k + 1 => (s.nexts k).next.2

/-- The visible line that `k` calls before it leave due, or the last one if they leave none. -/
def dueOrLast? (s : Session) (k : Nat) : Option Delivery := s.visible[k]?.or s.visible.getLast?

section Step

variable {s : Session} {last : Option Delivery} {ahead : List Delivery} {block : Option String}

theorem running_of_next (h : s.next.2.diagnostic? = none) : s.diagnostic? = none := by
  cases hs : s.diagnostic? with
  | none => rfl
  | some d =>
    rw [next_of_diagnostic hs, hs] at h
    cases h

/-- A call of `next` answers for the line that is due. It leaves that line the last one delivered,
whether or not it is at fault, and if it is not goes on with the rest. -/
theorem Stands.next_answered (h : s.Stands last ahead block) :
    Answered block ahead.head? s.next.1 ∧ s.next.2.lastDelivered? = ahead.head?.or last ∧
      (s.next.2.diagnostic? = none →
        s.next.2.Stands (ahead.head?.or last) ahead.tail s.next.2.blockType ∧
          Leaves block ahead.head?.toList s.next.2.blockType) := by
  cases ahead with
  | nil =>
    obtain ⟨s', hnext, hs'⟩ := h.next_nil
    rw [hnext]
    obtain rfl := hs'.block_eq
    exact ⟨.endOfStream, hs'.last_eq, fun _ => ⟨hs', .nil⟩⟩
  | cons entry rest =>
    obtain ⟨line, tokens⟩ := entry
    rcases follows_or_breach block tokens with ⟨next, hf⟩ | ⟨fault, hb⟩
    · obtain ⟨signal, s', hnext, hanswer, hs'⟩ := h.next_follows hf
      rw [hnext]
      obtain rfl := hs'.block_eq
      exact ⟨hanswer, hs'.last_eq, fun _ => ⟨hs', .cons hf .nil⟩⟩
    · obtain ⟨d, s', hnext, rfl, hsite, hstatus, hlast⟩ := h.next_breach hb
      rw [hnext]
      refine ⟨.error hb hsite, hlast, ?_⟩
      intro hrun
      rw [diagnostic?_eq_some_iff.mpr hstatus] at hrun
      cases hrun

theorem current_of_running (h : s.diagnostic? = none) :
    s.current = .ok (s.lastDelivered?.map Prod.snd) := by
  unfold current
  rw [h]

theorem halt_of_running (h : s.diagnostic? = none) (fault : Fault) :
    (s.halt fault).1.fault = fault ∧ (s.halt fault).1.site = s.lastLine? := by
  unfold halt
  rw [h]
  exact ⟨s.fail_fault fault _, s.fail_site fault _⟩

end Step

section Run

variable {s : Session} {visible : List Delivery}

theorem getLast?_take_succ (k : Nat) :
    (visible.take (k + 1)).getLast? = (visible.drop k).head?.or (visible.take k).getLast? := by
  rw [List.take_add_one, List.getLast?_append, List.head?_drop]
  cases visible[k]? <;> rfl

/-- After `k` calls without a fault the first `k` visible lines have been delivered. -/
theorem Stands.nexts (h : s.Stands none visible none) (k : Nat)
    (hrun : (s.nexts k).diagnostic? = none) :
    (s.nexts k).Stands (visible.take k).getLast? (visible.drop k) (s.nexts k).blockType ∧
      Leaves none (visible.take k) (s.nexts k).blockType := by
  induction k with
  | zero =>
    have hblock : s.blockType = none := h.block_eq
    rw [Session.nexts, hblock]
    exact ⟨h, .nil⟩
  | succ k ih =>
    obtain ⟨hk, hleaves⟩ := ih (running_of_next hrun)
    obtain ⟨-, -, hgo⟩ := hk.next_answered
    obtain ⟨hnext, hstep⟩ := hgo hrun
    rw [List.tail_drop, ← getLast?_take_succ] at hnext
    refine ⟨hnext, ?_⟩
    rw [List.take_add_one, ← List.head?_drop]
    exact hleaves.append hstep

theorem getLast?_take_succ_eq (k : Nat) :
    (visible.take (k + 1)).getLast? = visible[k]?.or visible.getLast? := by
  rw [List.getLast?_take, if_neg (Nat.succ_ne_zero k), Nat.add_sub_cancel]

theorem Stands.nexts_answered (h : s.Stands none visible none) (k : Nat)
    (hrun : (s.nexts k).diagnostic? = none) :
    Leaves none (visible.take k) (s.nexts k).blockType ∧
      Answered (s.nexts k).blockType visible[k]? (s.nexts k).next.1 ∧
      (s.nexts (k + 1)).lastDelivered? = visible[k]?.or visible.getLast? := by
  obtain ⟨hk, hleaves⟩ := h.nexts k hrun
  obtain ⟨hanswer, hlast, -⟩ := hk.next_answered
  rw [List.head?_drop] at hanswer
  rw [← getLast?_take_succ, getLast?_take_succ_eq] at hlast
  exact ⟨hleaves, hanswer, hlast⟩

theorem running_of_next_ne_error (h : ∀ d, s.next.1 ≠ .error d) : s.next.2.diagnostic? = none := by
  rw [diagnostic?_eq_none_iff]
  intro d hd
  rw [next_status_eq, Signal.status_eq_error_iff] at hd
  exact h d hd

end Run

end Session

theorem Answered.site_eq {block : Option String} {due : Option Delivery} {d : Diagnostic}
    (h : Answered block due (.error d)) : ∃ tokens line, due = some (line, tokens) ∧
      d.site = some line := by
  cases h with
  | error _ hsite => exact ⟨_, _, rfl, hsite⟩

theorem Session.stands_visible_of_load {s loaded : Session} {disk : Disk} {root : String}
    (hload : s.load disk root = (.ok (), loaded)) : loaded.Stands none loaded.visible none := by
  have hok : (s.load disk root).1 = .ok () := by rw [hload]
  have hstands := stands_of_load hok
  have hsettings : (s.load disk root).2.settings = s.settings := by
    rw [s.load_of_complete disk root ((s.load_eq_ok_iff disk root).mp hok)]
    rfl
  rw [← hsettings, hload] at hstands
  exact hstands

/-- After a load, each call of `next` answers for the visible line whose turn it is, in the block
that the lines before leave open, and with the end of the lines when all have been delivered. The
line read again afterwards is that line, or at the end the last visible one; so is the one that a
fault is blamed on, found by `next` or by the reader of the signals. -/
theorem nexts_deliver_visible {s loaded : Session} {disk : Disk} {root : String}
    (hload : s.load disk root = (.ok (), loaded)) :
    (loaded.lastLine? = none ∧ loaded.current = .ok none) ∧
    (∀ k, (loaded.nexts k).diagnostic? = none →
      Leaves none (loaded.visible.take k) (loaded.nexts k).blockType ∧
      Answered (loaded.nexts k).blockType loaded.visible[k]? (loaded.nexts k).next.1 ∧
      (loaded.nexts (k + 1)).lastLine? = (loaded.dueOrLast? k).map Prod.fst ∧
      ((∀ d, (loaded.nexts k).next.1 ≠ .error d) →
        (loaded.nexts (k + 1)).current = .ok ((loaded.dueOrLast? k).map Prod.snd)) ∧
      ∀ d, (loaded.nexts k).next.1 = .error d → (loaded.nexts (k + 1)).lastLine? = d.site) ∧
    ∀ t : Session, t.diagnostic? = none → ∀ fault,
      (t.halt fault).1.fault = fault ∧ (t.halt fault).1.site = t.lastLine? := by
  have hstands := Session.stands_visible_of_load hload
  refine ⟨⟨?_, ?_⟩, ?_, fun t hrun fault => Session.halt_of_running hrun fault⟩
  · exact hstands.lastLine_eq
  · rw [Session.current_of_running hstands.running, hstands.last_eq]
    rfl
  · intro k hrun
    obtain ⟨hleaves, hanswer, hlast⟩ := hstands.nexts_answered k hrun
    have hline : (loaded.nexts (k + 1)).lastLine? = (loaded.dueOrLast? k).map Prod.fst :=
      congrArg (Option.map Prod.fst) hlast
    refine ⟨hleaves, hanswer, hline, ?_, ?_⟩
    · intro hno
      have hrun' : (loaded.nexts (k + 1)).diagnostic? = none :=
        Session.running_of_next_ne_error hno
      rw [Session.current_of_running hrun', hlast]
      rfl
    · intro d hd
      rw [hd] at hanswer
      obtain ⟨tokens, line, hdue, hsite⟩ := hanswer.site_eq
      rw [hline, Session.dueOrLast?, hdue, hsite]
      rfl

def kneeLoaded : Session :=
  { Session.new { showIncludes := false } with
    ahead := [⟨"knee.dd", 1, "bus can0"⟩, ⟨"knee.dd", 2, ""⟩, ⟨"knee.dd", 3, "begin motor left"⟩,
      ⟨"knee.dd", 4, "  include gains.dd"⟩, ⟨"gains.dd", 1, "kp 40.0"⟩, ⟨"gains.dd", 2, "kd 2.5"⟩,
      ⟨"knee.dd", 5, "end motor"⟩]
    filesOpened := 2 }

def brokenLoaded : Session :=
  { Session.new {} with
    ahead := [⟨"broken.dd", 1, "bus can0"⟩, ⟨"broken.dd", 2, "begin motor"⟩,
      ⟨"broken.dd", 3, "end arm"⟩]
    filesOpened := 1 }

/-- The knee's third visible line stands in a file of its own, behind an include line that is not
shown. In the broken description the third visible line is at fault. -/
theorem nexts_motors :
    Answered (some "motor") (some (⟨"gains.dd", 1, "kp 40.0"⟩, ["kp", "40.0"]))
        (kneeLoaded.nexts 2).next.1 ∧
      (kneeLoaded.nexts 3).lastLine? = some ⟨"gains.dd", 1, "kp 40.0"⟩ ∧
      (kneeLoaded.nexts 6).lastLine? = some ⟨"knee.dd", 5, "end motor"⟩ ∧
      (brokenLoaded.nexts 2).next.1 = .error unmatchedArm ∧
      (brokenLoaded.nexts 3).lastLine? = unmatchedArm.site := by
  have hknee : (Session.new { showIncludes := false }).load motors "knee.dd" = (.ok (), kneeLoaded) := by
    decide +kernel
  have hbroken : (Session.new {}).load motors "broken.dd" = (.ok (), brokenLoaded) := by
    decide +kernel
  obtain ⟨-, hdelivers, -⟩ := nexts_deliver_visible hknee
  obtain ⟨-, hfails, -⟩ := nexts_deliver_visible hbroken
  obtain ⟨-, hanswer, hline, -⟩ := hdelivers 2 (by decide +kernel)
  obtain ⟨-, -, hend, -⟩ := hdelivers 5 (by decide +kernel)
  obtain ⟨-, -, -, -, hsite⟩ := hfails 2 (by decide +kernel)
  have hblock : (kneeLoaded.nexts 2).blockType = some "motor" := by decide +kernel
  have hdue : kneeLoaded.visible[2]? = some (⟨"gains.dd", 1, "kp 40.0"⟩, ["kp", "40.0"]) := by
    decide +kernel
  have hlast : kneeLoaded.dueOrLast? 5 = some (⟨"knee.dd", 5, "end motor"⟩, ["end", "motor"]) := by
    decide +kernel
  have herror : (brokenLoaded.nexts 2).next.1 = .error unmatchedArm := by decide +kernel
  rw [hblock, hdue] at hanswer
  rw [Session.dueOrLast?, hdue] at hline
  rw [hlast] at hend
  exact ⟨hanswer, hline, hend, herror, hsite _ herror⟩

end DeviceDescription
