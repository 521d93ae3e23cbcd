import Dmx512.Proofs.Link.Driving

/-!
# How an attempt to send ends

An attempt to send bytes by hand may be refused by the pin, before the bytes or behind
them, and a wait may take too long. However it ends, a front part of the bytes was put on
the line, behind a break where one was wanted, and all of them where it succeeded. Where
the pin took every level that it was given, the line is handed back and received from again.
-/

namespace Dmx512.Scene

open Step.Kind (IsManual)

variable {d r : Nat} {s m u t : Scene d r}
variable {bytes : List UInt8} {withBreak : Bool} {outcome : Outcome Unit}

/-- An attempt to send got as far as sending, and ended with an outcome where the pin was
given levels on the way and took them or not. -/
inductive Concludes (moved : List (Bool × Bool)) (outcome : Outcome Unit) (t : Scene d r) :
    Prop where
  | refused (fails : ∃ pin ∈ moved, pin.2 = false) (answer : outcome = .error (.line .pin))
      (stopped : t.engine.running = false) : Concludes moved outcome t
  | receives (driven : ∀ pin ∈ moved, pin.2 = true)
      (answer : outcome = .ok () ∨ outcome = .error (.line .timeout))
      (standing : t.standing = (.input, true, true)) : Concludes moved outcome t

/-- What an attempt to send `bytes` leaves behind: a silent line, where the pin refused to take
it; and otherwise entries that carry them, all of them where it succeeded. -/
inductive Attempts (bytes : List UInt8) (withBreak : Bool) (s : Scene d r) :
    Outcome Unit → Scene d r → Prop where
  | refused {new : Journal} {t : Scene d r} (journal : t.journal = new ++ s.journal)
      (silent : new.Silent) (fails : ∃ pin ∈ new.pins, pin.2 = false)
      (stopped : t.engine.running = false) :
      Attempts bytes withBreak s (.error (.line .pin)) t
  | sends {new : Journal} {outcome : Outcome Unit} {t : Scene d r}
      (journal : t.journal = new ++ s.journal)
      (carries : new.Carries bytes withBreak (outcome = .ok ()))
      (concludes : t.Concludes new.pins outcome) : Attempts bytes withBreak s outcome t

/-- What comes ahead of an attempt is silent and does not move the pin. -/
theorem Attempts.ahead (h : m.Attempts bytes withBreak outcome t) (first : s.StaysSilent m)
    (still : m.journal.pins = s.journal.pins) : s.Attempts bytes withBreak outcome t := by
  obtain ⟨before, journal, quiet⟩ := first
  have unmoved : Journal.pins before = [] := Journal.pins_of_append journal.symm still
  have same (new : Journal) : Journal.pins (new ++ before) = Journal.pins new := by
    rw [Journal.pins_append, unmoved, List.append_nil]
  cases h with
  | @refused new _ journal' silent fails stopped =>
      have whole : t.journal = (new ++ before) ++ s.journal := by
        rw [journal', journal, List.append_assoc]
      exact .refused whole (silent.append quiet) ((same new).symm ▸ fails) stopped
  | @sends new _ _ journal' carries concludes =>
      have whole : t.journal = (new ++ before) ++ s.journal := by
        rw [journal', journal, List.append_assoc]
      exact .sends whole (carries.ahead quiet) ((same new).symm ▸ concludes)

namespace Transmits

/-- Taking the line and handing it back adds nothing to what a frame carries. -/
theorem around {finished : Bool} {outcome : Outcome Unit}
    (takes : s.Switches .output false (.ok ()) m) (frames : Frames bytes withBreak finished m u)
    (returns : u.Switches .input true outcome t) (steady : s.Steady)
    (present : s.engine.attached = true) (quiet : s.engine.sending = false) :
    s.Carries bytes withBreak (finished = true) t := by
  have taken := Transmits.taken takes
  have steady' := takes.steady' steady present
  have standing := (frames.steps taken).standing_eq (by simp [IsManual])
  have framed := frames.carries taken (steady'.settled.released taken.stopped) steady'.wired
  exact (framed.ahead (takes.silent quiet)).behind
    (returns.silent (taken.of_standing standing).quiet)

/-- While a frame is sent, the pin stays as it was when the line was taken. -/
theorem pins_held {finished : Bool} (takes : s.Switches .output false (.ok ()) m)
    (frames : Frames bytes withBreak finished m u) : ∃ moved,
      u.journal.pins = moved ++ s.journal.pins ∧ ∀ pin ∈ moved, pin.2 = true := by
  obtain ⟨moved, pins, driven⟩ := takes.pins_done
  have held := (frames.steps (Transmits.taken takes)).pins_eq (by simp [IsManual])
  exact ⟨moved, held.trans pins, fun pin given => congrArg Prod.snd (driven pin given)⟩

theorem attempts (h : s.Transmits bytes withBreak outcome t) (steady : s.Steady)
    (present : s.engine.attached = true) (quiet : s.engine.sending = false) :
    s.Attempts bytes withBreak outcome t := by
  cases h with
  | refused takes =>
      obtain ⟨rfl, pins⟩ := takes.pins_failed
      obtain ⟨_, stopped, _⟩ := standing_iff.mp takes.failed
      obtain ⟨new, journal, silent⟩ := takes.silent quiet
      have moved : Journal.pins new = [(Direction.output.pinLevel, false)] :=
        Journal.pins_of_append journal.symm pins
      exact .refused journal silent ⟨_, moved ▸ List.mem_singleton_self _, rfl⟩ stopped
  | @kept m u _ finished _ takes frames returns =>
      obtain ⟨before, held, _⟩ := pins_held takes frames
      obtain ⟨rfl, pins⟩ := returns.pins_failed
      obtain ⟨_, stopped, _⟩ := standing_iff.mp returns.failed
      obtain ⟨new, journal, carries⟩ := around takes frames returns steady present quiet
      have moved : Journal.pins new = (Direction.input.pinLevel, false) :: before :=
        Journal.pins_of_append journal.symm (pins.trans (congrArg (_ :: ·) held))
      have fails : ∃ pin ∈ Journal.pins new, pin.2 = false :=
        ⟨(Direction.input.pinLevel, false), moved ▸ List.mem_cons_self, rfl⟩
      exact .sends journal (carries.mono (by simp)) (.refused fails rfl stopped)
  | @returned m u _ finished takes frames returns =>
      obtain ⟨before, held, driven⟩ := pins_held takes frames
      obtain ⟨after, pins, driven'⟩ := returns.pins_done
      obtain ⟨_, _, attached⟩ := framed takes frames steady present
      obtain ⟨new, journal, carries⟩ := around takes frames returns steady present quiet
      have moved : Journal.pins new = after ++ before := by
        apply Journal.pins_of_append journal.symm
        rw [pins, held, List.append_assoc]
      refine .sends journal (carries.mono ?_) (.receives ?_ ?_ (attached ▸ returns.done))
      · cases finished <;> simp
      · rw [moved]
        exact List.forall_mem_append.mpr
          ⟨fun pin given => congrArg Prod.snd (driven' pin given), driven⟩
      · cases finished with
        | true => exact .inl rfl
        | false => exact .inr rfl

end Transmits

/-- What the wait for the spacing adds to an attempt is silent. -/
theorem Delivers.attempts {spacing : Micros}
    (h : s.Delivers (.ok bytes) withBreak spacing outcome t) (steady : s.Steady)
    (present : s.engine.attached = true) (quiet : s.engine.sending = false) :
    s.Attempts bytes withBreak outcome t := by
  cases h with
  | streams sending => simp [quiet] at sending
  | malformed _ wrong => contradiction
  | sends _ right spaces transmits =>
      cases right
      have waits := spaces.waits
      obtain ⟨steady', present'⟩ := Delivers.waited waits steady present
      have quiet' := (sending_of_standing (Steps.standing_eq waits nofun)).trans quiet
      exact (transmits.attempts steady' present' quiet').ahead
        (waits.silent steady.wired quiet) (Steps.pins_eq waits (by simp))

end Dmx512.Scene
