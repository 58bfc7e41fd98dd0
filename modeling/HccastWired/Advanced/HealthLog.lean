import HccastWired.Advanced.Observer

/-!
# Trusted health observations

A sample stands for a complete log of one boot: well-formed records without a gap, from
the start of the kernel on. Its fault flag says what the records of the kernel say.
-/

namespace HccastWired.Advanced.LinuxAdvancedObserver

open Foundation

section Specification

/-- A record of the kernel log. -/
structure KmsgRecord where
  priority : Nat
  sequence : Nat
  timestamp : Nat
  message : Bytes

namespace KmsgRecord

def facility (r : KmsgRecord) : Nat :=
  r.priority / 8

def severity (r : KmsgRecord) : Nat :=
  r.priority % 8

/-- The digits of a number. -/
def Digits (digits : Bytes) (n : Nat) : Prop :=
  digits ≠ [] ∧ (∀ b ∈ digits, BytePattern.isDigit b = true) ∧ decimal digits = n

/-- `priority,sequence,timestamp,-`, perhaps more fields, a semicolon and the message. -/
def WrittenAs (r : KmsgRecord) (raw : Bytes) : Prop :=
  r.priority ≤ 2047 ∧ r.message.getLast? = some 10 ∧
    ∃ priority sequence timestamp more, Digits priority r.priority ∧ Digits sequence r.sequence ∧
      Digits timestamp r.timestamp ∧ 59 ∉ more ∧ more.head?.all (· = 44) = true ∧
      raw = priority ++ 44 :: (sequence ++ 44 :: (timestamp ++ 44 :: 45 :: (more ++ 59 :: r.message)))

/-- A record of the kernel itself that reports a fault. -/
def Faulty (r : KmsgRecord) : Prop :=
  r.facility = 0 ∧ (r.severity ≤ 3 ∨ kernelFault.Occurs r.message)

/-- A record of the kernel itself that reports the loss of others. -/
def ReportsLoss (r : KmsgRecord) : Prop :=
  r.facility = 0 ∧ kernelCoverageLost.Occurs r.message

/-- The first words of the kernel, within two seconds of its start. -/
def BootMarker (r : KmsgRecord) : Prop :=
  r.facility = 0 ∧ r.sequence < 32 ∧ r.timestamp ≤ 2000000 ∧
    ascii "Linux version " <:+: r.message

end KmsgRecord

namespace Machine

variable (m : Machine)

/-- The reader gets these records, and then there are no more for now. -/
def Logged (raws : List Bytes) : Prop :=
  (∀ i (h : i < raws.length), m.log i = .ok raws[i]) ∧ m.log raws.length = .error .blocking

/-- What the file of the boot id holds at a moment. -/
def BootIdAt (moment : Nat) (value : List Char) : Prop :=
  ∃ raw chars, m.read moment bootIdPath = .ok raw ∧ Json.asciiText raw = some chars ∧
    strip chars = value

/-- The clock had reached the time of the record at some reading. -/
def Reached (first last : Nat) (r : KmsgRecord) : Prop :=
  ∃ n, first ≤ n ∧ n < last ∧ (r.timestamp : Rat) ≤ roundBinary64 ((m.clock n).val * 1000000)

end Machine

/-- Records that cover a boot from its start, without a gap or a loss. -/
structure Covered (records : List KmsgRecord) : Prop where
  numbered : ∀ i (h : i < records.length), records[i].sequence = i
  ordered : records.Pairwise fun r s => r.timestamp ≤ s.timestamp
  marker : ∃ r ∈ records, r.BootMarker
  complete : ∀ r ∈ records, ¬ r.ReportsLoss

end Specification

section Settles

/-- The observation returns with the property, or raises one of the expected exceptions. -/
def Settles {α : Type} (x : Observation α) (n : Nat) (P : α → Nat → Prop) : Prop :=
  x.wp (fun _ => True) P (fun e _ => e.caught = true) n

namespace Settles

variable {α β : Type} {x : Observation α} {f : α → Observation β} {n : Nat} {P P' : α → Nat → Prop}
  {R : β → Nat → Prop}

theorem bind (h : Settles x n fun a k => Settles (f a) k R) : Settles (x >>= f) n R :=
  Call.wp_bind.mpr h

theorem pure {a : α} (h : P a n) : Settles (pure a) n P :=
  (Call.wp_pure a).mpr h

theorem raise (f : Fault) : Settles (throw (.fault f)) n P :=
  (Call.wp_throw _).mpr rfl

theorem answer {a : Except Fault α} (h : ∀ v, a = .ok v → P v n) :
    Settles (answer a) n P := by
  cases a with
  | ok v => exact Settles.pure (h v rfl)
  | error e => exact Settles.raise e

theorem moment {P : Nat → Nat → Prop} (h : P n n) : Settles Call.get n P :=
  Call.wp_get.mpr h

theorem refuse {condition : Prop} [Decidable condition] {P : Unit → Nat → Prop}
    (h : ¬ condition → P () n) : Settles (refuse condition) n P := by
  unfold LinuxAdvancedObserver.refuse
  split
  · exact Settles.raise _
  · next hc => exact Settles.pure (h hc)

theorem expect {value : Option α} (h : ∀ a, value = some a → P a n) :
    Settles (expect value) n P := by
  cases value with
  | some a => exact Settles.pure (h a rfl)
  | none => exact Settles.raise _

variable {m : Machine} {deadline : Rat}

theorem clock {P : Rat → Nat → Prop} (h : P (m.clock n).val (n + 1)) : Settles (clock m) n P := by
  apply Settles.bind
  apply Settles.moment
  apply Settles.bind
  apply Call.wp_update.mpr
  exact ⟨trivial, Settles.pure h⟩

theorem check {P : Unit → Nat → Prop} (h : P () (n + 1)) : Settles (check m deadline) n P := by
  apply Settles.bind
  apply Settles.clock
  split
  · exact Settles.raise _
  · exact Settles.pure h

theorem text {raw : Bytes} {P : List Char → Nat → Prop}
    (h : ∀ chars, Json.asciiText raw = some chars → P (strip chars) n) :
    Settles (text raw) n P := by
  unfold LinuxAdvancedObserver.text
  split
  · exact Settles.raise _
  · cases hraw : Json.asciiText raw with
    | none => exact Settles.raise _
    | some chars => exact Settles.pure (h chars hraw)

theorem read {path : String} {limit : Nat} {P : Bytes → Nat → Prop}
    (h : ∀ raw, m.read (n + 1) path = .ok raw → P raw (n + 2)) :
    Settles (read m path deadline limit) n P := by
  apply Settles.bind
  apply Settles.check
  apply Settles.bind
  apply Settles.moment
  apply Settles.bind
  apply Settles.answer
  intro raw hraw
  apply Settles.bind
  apply Settles.check
  split
  · exact Settles.raise _
  · exact Settles.pure (h raw hraw)

theorem command {argv : List String} {P : Bytes → Nat → Prop} (h : ∀ raw, P raw (n + 4)) :
    Settles (command m argv deadline) n P := by
  apply Settles.bind
  apply Settles.check
  apply Settles.bind
  apply Settles.bind
  apply Settles.check
  apply Settles.bind
  apply Settles.clock
  apply Settles.pure
  apply Settles.bind
  apply Settles.moment
  apply Settles.bind
  apply Settles.answer
  intro raw _
  apply Settles.bind
  apply Settles.check
  split
  · exact Settles.raise _
  · exact Settles.pure (h raw)

theorem bootId {P : List Char → Nat → Prop}
    (h : ∀ value, m.BootIdAt (n + 1) value → P value (n + 2)) :
    Settles (bootId m deadline) n P := by
  apply Settles.bind
  apply Settles.read
  intro raw hraw
  apply Settles.bind
  apply Settles.text
  intro chars hchars
  split
  · exact Settles.pure (h _ ⟨raw, chars, hraw, hchars, rfl⟩)
  · exact Settles.raise _

theorem readRecords {records : List Bytes} {P : List Bytes → Nat → Prop} (more total : Nat)
    (hlog : ∀ i (h : i < records.length), m.log i = .ok records[i])
    (h : ∀ raws k, m.Logged raws → n ≤ k → P raws k) :
    Settles (readRecords m deadline more records total) n P := by
  induction more generalizing records total n with
  | zero => exact Settles.raise _
  | succ more ih =>
    apply Settles.bind
    apply Settles.check
    split
    · next hend => exact Settles.pure (h records _ ⟨hlog, hend⟩ (Nat.le_succ n))
    · exact Settles.raise _
    · next record hrecord =>
      split
      · exact Settles.raise _
      · split
        · exact Settles.raise _
        · apply ih
          · intro i hi
            rw [List.getElem_append]
            split
            · next hold => exact hlog i hold
            · next hnew =>
              have hlast : i = records.length := by
                rw [List.length_append, List.length_singleton] at hi
                omega
              subst hlast
              simpa using hrecord
          · intro raws k hraws hk
            exact h raws k hraws (by omega)

/-- Whatever the body of a `finally` clause ends in, the log is closed before. -/
theorem kernelRecords {P : List Bytes → Nat → Prop} (h : ∀ raws k, m.Logged raws → n ≤ k → P raws k) :
    Settles (kernelRecords m deadline) n P := by
  apply Settles.bind
  apply Settles.refuse
  intro _
  apply Settles.bind
  apply Settles.moment
  apply Settles.bind
  apply Settles.answer
  intro device _
  apply Settles.bind
  apply Call.wp_tryCatch.mpr
  have hlast : ∀ (outcome : Except Raised (List Bytes)) (k : Nat),
      (∀ raws, outcome = .ok raws → P raws k) → (∀ e, outcome = .error e → e.caught = true) →
      Settles (do
        let closed ← Call.get
        LinuxAdvancedObserver.answer (m.closeLog closed)
        Call.ofExcept outcome) k P := by
    intro outcome k hok herror
    apply Settles.bind
    apply Settles.moment
    apply Settles.bind
    apply Settles.answer
    intro _ _
    cases outcome with
    | ok raws => exact Settles.pure (hok raws rfl)
    | error e => exact (Call.wp_throw e).mpr (herror e rfl)
  have hbody : Settles (readLog m deadline device) n P := by
    unfold readLog
    split
    · exact Settles.raise _
    · exact Settles.readRecords _ _ (by simp) h
  refine Call.wp_bind.mpr (Call.wp.mono hbody (fun raws k hraws => ?_) fun e k he => ?_)
  · apply (Call.wp_pure _).mpr
    apply hlast (.ok raws) k
    · intro raws' heq
      exact Except.ok.inj heq ▸ hraws
    · intro e heq
      cases heq
  · apply (Call.wp_pure _).mpr
    apply hlast (.error e) k
    · intro raws heq
      cases heq
    · intro e' heq
      exact Except.error.inj heq ▸ he

end Settles

end Settles

section Records

theorem facility_eq (priority : Nat) : priority >>> 3 = priority / 8 :=
  Nat.shiftRight_eq_div_pow priority 3

theorem severity_eq (priority : Nat) : priority &&& 7 = priority % 8 :=
  Nat.and_two_pow_sub_one_eq_mod priority 3

/-- The fields of a header with at least four of them. -/
theorem splitOn_header {header a b c d : Bytes} {more : List Bytes}
    (h : header.splitOn 44 = a :: b :: c :: d :: more) :
    ∃ rest, header = a ++ 44 :: (b ++ 44 :: (c ++ 44 :: (d ++ rest))) ∧
      rest.head?.all (· = 44) = true := by
  have hjoin : [44].intercalate (header.splitOn 44) = header := List.intercalate_splitOn 44
  rw [h] at hjoin
  simp only [List.intercalate_cons_cons] at hjoin
  cases more with
  | nil =>
    refine ⟨[], ?_, rfl⟩
    rw [List.intercalate_singleton] at hjoin
    simpa using hjoin.symm
  | cons e more =>
    refine ⟨44 :: [44].intercalate (e :: more), ?_, rfl⟩
    rw [List.intercalate_cons_cons] at hjoin
    simpa using hjoin.symm

theorem takeWhile_dropWhile_tail {raw : Bytes} (h : 59 ∈ raw) :
    59 ∉ raw.takeWhile (· ≠ 59) ∧
      raw = raw.takeWhile (· ≠ 59) ++ 59 :: (raw.dropWhile (· ≠ 59)).tail := by
  constructor
  · intro hmem
    simpa using List.mem_takeWhile_imp hmem
  · have hne : raw.dropWhile (· ≠ 59) ≠ [] := by
      intro hnil
      have hall := List.dropWhile_eq_nil_iff.mp hnil 59 h
      simp at hall
    have hhead : (raw.dropWhile (· ≠ 59)).head hne = 59 := by
      simpa using List.head_dropWhile_not (fun b : UInt8 => decide (b ≠ 59)) hne
    have hdrop : raw.dropWhile (· ≠ 59) = 59 :: (raw.dropWhile (· ≠ 59)).tail :=
      (List.cons_head_tail hne).symm.trans (congrArg (· :: _) hhead)
    calc
      raw = raw.takeWhile (· ≠ 59) ++ raw.dropWhile (· ≠ 59) :=
        List.takeWhile_append_dropWhile.symm
      _ = raw.takeWhile (· ≠ 59) ++ 59 :: (raw.dropWhile (· ≠ 59)).tail :=
        congrArg (_ ++ ·) hdrop

theorem digits_of_isDecimal {field : Bytes} (h : isDecimal field = true) :
    KmsgRecord.Digits field (decimal field) := by
  simp only [isDecimal, Bool.and_eq_true, Bool.not_eq_true', List.all_eq_true] at h
  exact ⟨by simpa using h.1, h.2, rfl⟩

/-- The header and the message that the loop takes apart are those of a record. -/
theorem writtenAs_of_fields {raw a b c : Bytes} {more : List Bytes} (hcut : 59 ∈ raw)
    (hfields : (raw.takeWhile (· ≠ 59)).splitOn 44 = a :: b :: c :: ascii "-" :: more)
    (ha : isDecimal a = true) (hb : isDecimal b = true) (hc : isDecimal c = true)
    (hpriority : decimal a ≤ 2047) (hend : raw.getLast? = some 10) :
    (⟨decimal a, decimal b, decimal c, (raw.dropWhile (· ≠ 59)).tail⟩ : KmsgRecord).WrittenAs
      raw := by
  obtain ⟨hnot, hraw⟩ := takeWhile_dropWhile_tail hcut
  obtain ⟨rest, hheader, hrest⟩ := splitOn_header hfields
  refine ⟨hpriority, ?_, a, b, c, rest, digits_of_isDecimal ha, digits_of_isDecimal hb,
    digits_of_isDecimal hc, ?_, hrest, ?_⟩
  · rw [hraw, List.getLast?_append, List.getLast?_cons] at hend
    cases htail : (raw.dropWhile (· ≠ 59)).tail with
    | nil =>
      rw [htail] at hend
      simp at hend
    | cons b rest =>
      rw [htail, List.getLast?_eq_some_getLast (List.cons_ne_nil b rest)] at hend
      rw [List.getLast?_eq_some_getLast (List.cons_ne_nil b rest)]
      simpa using hend
  · intro hmem
    apply hnot
    rw [hheader]
    simp [hmem]
  · calc
      raw = raw.takeWhile (· ≠ 59) ++ 59 :: (raw.dropWhile (· ≠ 59)).tail := hraw
      _ = _ := by
        rw [hheader]
        simp [ascii]

end Records

section Settles

namespace Settles

variable {n : Nat} {m : Machine} {deadline : Rat}

theorem item {fields : List Bytes} {i : Nat} {field : Bytes} {P : Bytes → Nat → Prop}
    (hfield : fields[i]? = some field) (h : P field n) : Settles (item fields i) n P := by
  rw [LinuxAdvancedObserver.item, hfield]
  exact Settles.pure h

theorem int {field : Bytes} {P : Nat → Nat → Prop} (h : P (decimal field) n) :
    Settles (int field) n P := by
  unfold LinuxAdvancedObserver.int
  split
  · exact Settles.raise _
  · exact Settles.pure h

theorem cut {raw : Bytes} {P : Bytes × Bytes → Nat → Prop}
    (h : 59 ∈ raw → P (raw.takeWhile (· ≠ 59), (raw.dropWhile (· ≠ 59)).tail) n) :
    Settles (cut raw) n P := by
  unfold LinuxAdvancedObserver.cut
  split
  · next hmem => exact Settles.pure (h hmem)
  · exact Settles.raise _

/-- Fields that are not malformed are enough for what reads them. -/
theorem malformed {fields : List Bytes} {P : Bool → Nat → Prop} (hbad : P true n)
    (h : ∀ a b c more, fields = a :: b :: c :: ascii "-" :: more → isDecimal a = true →
      isDecimal b = true → isDecimal c = true → P false n) :
    Settles (malformed fields) n P := by
  match fields with
  | [] => exact Settles.pure hbad
  | [_] => exact Settles.pure hbad
  | [_, _] => exact Settles.pure hbad
  | [_, _, _] => exact Settles.pure hbad
  | a :: b :: c :: d :: more =>
    unfold LinuxAdvancedObserver.malformed
    rw [if_neg (by simp)]
    apply Settles.bind
    apply Settles.item rfl
    apply Settles.pure
    by_cases hok : d = ascii "-" ∧ [a, b, c].all isDecimal = true
    · obtain ⟨rfl, hall⟩ := hok
      have hbad : (decide (ascii "-" ≠ ascii "-") ||
          !((a :: b :: c :: ascii "-" :: more).take 3).all isDecimal) = false := by
        simpa using hall
      rw [hbad]
      simp only [List.all_cons, List.all_nil, Bool.and_true, Bool.and_eq_true] at hall
      exact h a b c more rfl hall.1 hall.2.1 hall.2.2
    · have hbad' : (decide (d ≠ ascii "-") ||
          !((a :: b :: c :: d :: more).take 3).all isDecimal) = true := by
        by_contra hno
        apply hok
        simpa using hno
      rw [hbad']
      exact hbad

/-- The first fields of a record, in digits. -/
theorem inspect {t : Tally} {expected : Nat} {raw : Bytes} {P : Tally → Nat → Prop}
    (h : ∀ r : KmsgRecord, r.WrittenAs raw → r.sequence = expected →
      t.previousTime ≤ (r.timestamp : Int) →
      (r.timestamp : Rat) ≤ roundBinary64 ((m.clock (n + 1)).val * 1000000) →
      ¬ r.ReportsLoss → P (t.next expected r.priority r.timestamp r.message raw.length) (n + 2)) :
    Settles (inspect m deadline expected raw t) n P := by
  apply Settles.bind
  apply Settles.check
  apply Settles.bind
  apply Settles.refuse
  intro _
  apply Settles.bind
  apply Settles.refuse
  intro _
  apply Settles.bind
  apply Settles.cut
  intro hcut
  apply Settles.bind
  apply Settles.malformed
  · apply Settles.bind
    apply Settles.refuse
    intro hbad
    exact (hbad rfl).elim
  · intro a b c more hfields ha hb hc
    apply Settles.bind
    apply Settles.refuse
    intro _
    rw [hfields]
    apply Settles.bind
    apply Settles.item rfl
    apply Settles.bind
    apply Settles.int
    apply Settles.bind
    apply Settles.item rfl
    apply Settles.bind
    apply Settles.int
    apply Settles.bind
    apply Settles.item rfl
    apply Settles.bind
    apply Settles.int
    apply Settles.bind
    apply Settles.refuse
    intro hnumbers
    apply Settles.bind
    apply Settles.clock
    apply Settles.bind
    apply Settles.refuse
    intro htime
    apply Settles.bind
    apply Settles.refuse
    intro hloss
    apply Settles.pure
    rw [not_or, not_lt, not_not] at htime
    obtain ⟨hseq, hrest⟩ := not_or.mp hnumbers
    obtain ⟨hpriority, hprevious⟩ := not_or.mp hrest
    have hwritten := writtenAs_of_fields hcut hfields ha hb hc (not_lt.mp hpriority) htime.2
    refine h _ hwritten (not_not.mp hseq) (not_lt.mp hprevious) htime.1 ?_
    rintro ⟨hfacility, hreports⟩
    exact hloss ⟨(facility_eq _).trans hfacility, (BytePattern.search_iff _ _).mpr hreports⟩

end Settles

end Settles

section Runs

variable {m : Machine} {deadline : Rat} {first now : Nat} {records : List KmsgRecord} {t : Tally}

/-- What the tally says about the records so far. -/
structure Tally.Accounts (m : Machine) (first now : Nat) (records : List KmsgRecord) (t : Tally) :
    Prop where
  numbered : ∀ i (h : i < records.length), records[i].sequence = i
  ordered : records.Pairwise fun r s => r.timestamp ≤ s.timestamp
  upTo : ∀ r ∈ records, (r.timestamp : Int) ≤ t.previousTime
  reached : ∀ r ∈ records, m.Reached first now r
  complete : ∀ r ∈ records, ¬ r.ReportsLoss
  marker : t.marker = true → ∃ r ∈ records, r.BootMarker
  faults : t.faults = true ↔ ∃ r ∈ records, r.Faulty

theorem Tally.accounts_start : Tally.start.Accounts m first now [] where
  numbered := by simp
  ordered := List.Pairwise.nil
  upTo := by simp
  reached := by simp
  complete := by simp
  marker := by simp [Tally.start]
  faults := by simp [Tally.start]

theorem Machine.Reached.mono {r : KmsgRecord} {later : Nat} (h : m.Reached first now r)
    (hle : now ≤ later) : m.Reached first later r := by
  obtain ⟨n, hfirst, hlast, htime⟩ := h
  exact ⟨n, hfirst, hlast.trans_le hle, htime⟩

theorem Tally.next_faults (t : Tally) (r : KmsgRecord) (expected length : Nat) :
    (t.next expected r.priority r.timestamp r.message length).faults = true ↔
      t.faults = true ∨ r.Faulty := by
  unfold Tally.next
  rw [facility_eq, severity_eq]
  split
  · next hfacility =>
    simp [KmsgRecord.Faulty, KmsgRecord.facility, KmsgRecord.severity, hfacility, or_assoc,
      BytePattern.search_iff]
  · next hfacility =>
    simp [KmsgRecord.Faulty, KmsgRecord.facility, hfacility]

theorem Tally.next_marker {t : Tally} {r : KmsgRecord} {length : Nat}
    (h : (t.next r.sequence r.priority r.timestamp r.message length).marker = true) :
    t.marker = true ∨ r.BootMarker := by
  unfold Tally.next at h
  rw [facility_eq] at h
  split at h
  · next hfacility =>
    simp only [marks, Bool.or_eq_true, Bool.and_eq_true, decide_eq_true_eq] at h
    rcases h with hmarker | ⟨⟨hsequence, hwords⟩, htime⟩
    · exact .inl hmarker
    · exact .inr ⟨hfacility, hsequence, htime, hwords⟩
  · exact .inl h

@[simp] theorem Tally.next_previousTime (t : Tally) (expected priority timestamp length : Nat)
    (message : Bytes) :
    (t.next expected priority timestamp message length).previousTime = timestamp := by
  unfold Tally.next
  split
  · rfl
  · rfl

/-- One record more. -/
theorem Tally.Accounts.next (h : t.Accounts m first now records) {r : KmsgRecord} {length : Nat}
    (hfirst : first ≤ now) (hsequence : r.sequence = records.length)
    (hprevious : t.previousTime ≤ r.timestamp)
    (htime : (r.timestamp : Rat) ≤ roundBinary64 ((m.clock (now + 1)).val * 1000000))
    (hloss : ¬ r.ReportsLoss) :
    (t.next records.length r.priority r.timestamp r.message length).Accounts m first (now + 2)
      (records ++ [r]) where
  numbered := by
    intro i hi
    rw [List.getElem_append]
    split
    · next hold => exact h.numbered i hold
    · next hnew =>
      rw [List.length_append, List.length_singleton] at hi
      rw [List.getElem_singleton, hsequence]
      omega
  ordered := by
    apply List.pairwise_append.mpr
    refine ⟨h.ordered, List.pairwise_singleton _ _, ?_⟩
    intro s hs r' hr'
    obtain rfl := List.mem_singleton.mp hr'
    have hle := (h.upTo s hs).trans hprevious
    exact_mod_cast hle
  upTo := by
    rw [List.forall_mem_append, Tally.next_previousTime]
    exact ⟨fun s hs => (h.upTo s hs).trans hprevious, by simp⟩
  reached := by
    rw [List.forall_mem_append]
    refine ⟨fun s hs => (h.reached s hs).mono (by omega), ?_⟩
    rw [List.forall_mem_singleton]
    exact ⟨now + 1, by omega, by omega, htime⟩
  complete := by
    rw [List.forall_mem_append, List.forall_mem_singleton]
    exact ⟨h.complete, hloss⟩
  marker := by
    intro hmarker
    rw [← hsequence] at hmarker
    rcases Tally.next_marker hmarker with hold | hnew
    · obtain ⟨s, hs, hboot⟩ := h.marker hold
      exact ⟨s, List.mem_append_left _ hs, hboot⟩
    · exact ⟨r, by simp, hnew⟩
  faults := by
    rw [Tally.next_faults, h.faults]
    simp [or_and_right, exists_or]

/-- All the records of the log. -/
theorem Settles.inspectAll {raws more : List Bytes} {P : Tally → Nat → Prop}
    (hwritten : List.Forall₂ KmsgRecord.WrittenAs records raws)
    (h : t.Accounts m first now records) (hfirst : first ≤ now)
    (hP : ∀ t k records, first ≤ k → List.Forall₂ KmsgRecord.WrittenAs records (raws ++ more) →
      t.Accounts m first k records → P t k) :
    Settles (inspectAll m deadline records.length more t) now P := by
  induction more generalizing raws records t now with
  | nil =>
    apply Settles.pure
    exact hP t now records hfirst (by simpa using hwritten) h
  | cons raw more ih =>
    apply Settles.bind
    apply Settles.inspect
    intro r hr hsequence hprevious htime hloss
    have hnext := @Tally.Accounts.next _ _ _ _ _ h r raw.length hfirst hsequence hprevious htime hloss
    have happ := List.rel_append hwritten (List.Forall₂.cons hr List.Forall₂.nil)
    rw [← List.length_singleton (a := r), ← List.length_append]
    exact ih happ hnext (by omega) fun t k records' hk hall => hP t k records' hk (by simpa using hall)

end Runs

section Unique

theorem KmsgRecord.Digits.notMem {digits : Bytes} {n : Nat} {b : UInt8}
    (h : KmsgRecord.Digits digits n) (hb : BytePattern.isDigit b = false) : b ∉ digits := by
  intro hmem
  rw [h.2.1 b hmem] at hb
  cases hb

/-- What stands before a separator, and what stands after it. -/
theorem before_separator {sep : UInt8} {a a' x x' : Bytes} (ha : sep ∉ a) (ha' : sep ∉ a')
    (h : a ++ sep :: x = a' ++ sep :: x') : a = a' ∧ x = x' := by
  rcases List.append_eq_append_iff.mp h with ⟨c, rfl, hc⟩ | ⟨c, rfl, hc⟩
  · cases c with
    | nil => exact ⟨(List.append_nil a).symm, (List.cons.inj hc).2⟩
    | cons b c => exact (ha' (by simp [(List.cons.inj hc).1])).elim
  · cases c with
    | nil => exact ⟨List.append_nil a', (List.cons.inj hc).2.symm⟩
    | cons b c => exact (ha (by simp [(List.cons.inj hc).1])).elim

/-- The bytes determine the record. -/
theorem KmsgRecord.WrittenAs.unique {r s : KmsgRecord} {raw : Bytes} (hr : r.WrittenAs raw)
    (hs : s.WrittenAs raw) : r = s := by
  obtain ⟨-, -, a, b, c, more, ha, hb, hc, hmore, -, hraw⟩ := hr
  obtain ⟨-, -, a', b', c', more', ha', hb', hc', hmore', -, hraw'⟩ := hs
  rw [hraw] at hraw'
  have hcomma : BytePattern.isDigit 44 = false := by decide
  obtain ⟨rfl, h₁⟩ := before_separator (ha.notMem hcomma) (ha'.notMem hcomma) hraw'
  obtain ⟨rfl, h₂⟩ := before_separator (hb.notMem hcomma) (hb'.notMem hcomma) h₁
  obtain ⟨rfl, h₃⟩ := before_separator (hc.notMem hcomma) (hc'.notMem hcomma) h₂
  have h₄ := (before_separator hmore hmore' (List.cons.inj h₃).2).2
  cases r
  cases s
  simp only [KmsgRecord.mk.injEq]
  exact ⟨ha.2.2.symm.trans ha'.2.2, hb.2.2.symm.trans hb'.2.2, hc.2.2.symm.trans hc'.2.2, h₄⟩

theorem exists_raw {records : List KmsgRecord} {raws : List Bytes}
    (h : List.Forall₂ KmsgRecord.WrittenAs records raws) :
    ∀ r ∈ records, ∃ raw ∈ raws, r.WrittenAs raw := by
  induction h with
  | nil => simp
  | cons hr _ ih =>
    rw [List.forall_mem_cons]
    constructor
    · exact ⟨_, List.mem_cons_self, hr⟩
    · intro r hmem
      obtain ⟨raw, hraw, hwritten⟩ := ih r hmem
      exact ⟨raw, List.mem_cons_of_mem _ hraw, hwritten⟩

theorem exists_record {records : List KmsgRecord} {raws : List Bytes}
    (h : List.Forall₂ KmsgRecord.WrittenAs records raws) :
    ∀ raw ∈ raws, ∃ r ∈ records, r.WrittenAs raw := by
  induction h with
  | nil => simp
  | cons hr _ ih =>
    rw [List.forall_mem_cons]
    constructor
    · exact ⟨_, List.mem_cons_self, hr⟩
    · intro raw hmem
      obtain ⟨r, hmem', hwritten⟩ := ih raw hmem
      exact ⟨r, List.mem_cons_of_mem _ hmem', hwritten⟩

/-- A log that extends another has its records. -/
theorem records_subset {records records' : List KmsgRecord} {raws raws' : List Bytes}
    (h : List.Forall₂ KmsgRecord.WrittenAs records raws)
    (h' : List.Forall₂ KmsgRecord.WrittenAs records' raws') (hsub : raws ⊆ raws') :
    records ⊆ records' := by
  intro r hr
  obtain ⟨raw, hraw, hwritten⟩ := exists_raw h r hr
  obtain ⟨r', hr', hwritten'⟩ := exists_record h' raw (hsub hraw)
  exact hwritten.unique hwritten' ▸ hr'

theorem Machine.Logged.length_le {m : Machine} {raws raws' : List Bytes} (h : m.Logged raws)
    (h' : m.Logged raws') : raws'.length ≤ raws.length := by
  by_contra hlt
  have hok := h'.1 raws.length (by omega)
  rw [h.2] at hok
  cases hok

/-- A machine has one log. -/
theorem Machine.Logged.unique {m : Machine} {raws raws' : List Bytes} (h : m.Logged raws)
    (h' : m.Logged raws') : raws = raws' := by
  apply List.ext_getElem (Nat.le_antisymm (h'.length_le h) (h.length_le h'))
  intro i hi hi'
  have hsame := h.1 i hi
  rw [h'.1 i hi'] at hsame
  exact (Except.ok.inj hsame).symm

end Unique

section Health

/-- What a sample stands for, in terms of the log it was taken from. -/
def Machine.Trusted (m : Machine) (raws : List Bytes) (s : HealthSample) : Prop :=
  m.Logged raws ∧ ∃ records first last value,
    List.Forall₂ KmsgRecord.WrittenAs records raws ∧ Covered records ∧
      m.BootIdAt first value ∧ m.BootIdAt last value ∧ (∀ r ∈ records, m.Reached first last r) ∧
      (s.dataErrors = true ↔ ∃ r ∈ records, r.Faulty)

theorem Settles.sample {m : Machine} {started : Rat} {n : Nat} :
    Settles (sample m started) n fun s _ => ∃ raws, m.Trusted raws s := by
  apply Settles.bind
  apply Settles.bootId
  intro value hfirst
  apply Settles.bind
  apply Settles.read
  intro kind _
  apply Settles.bind
  apply Settles.text
  intro _ _
  apply Settles.bind
  apply Settles.refuse
  intro _
  apply Settles.bind
  apply Settles.read
  intro raw _
  apply Settles.bind
  apply Settles.text
  intro _ _
  apply Settles.bind
  apply Settles.expect
  intro reading _
  apply Settles.bind
  apply Settles.refuse
  intro _
  apply Settles.bind
  apply Settles.command
  intro report
  apply Settles.bind
  apply Settles.text
  intro _ _
  apply Settles.bind
  apply Settles.expect
  intro bits _
  apply Settles.bind
  apply Settles.refuse
  intro _
  apply Settles.bind
  apply Settles.kernelRecords
  intro raws k hlog hk
  apply Settles.bind
  apply Settles.refuse
  intro _
  apply Settles.bind
  refine @Settles.inspectAll m _ (n + 1) _ [] Tally.start [] raws _ List.Forall₂.nil
    Tally.accounts_start (by omega) fun t k records hk hwritten h => ?_
  apply Settles.bind
  apply Settles.refuse
  intro hmarker
  apply Settles.bind
  apply Settles.bootId
  intro value' hlast
  apply Settles.bind
  apply Settles.refuse
  intro hsame
  apply Settles.bind
  apply Settles.check
  apply Settles.pure
  obtain rfl := not_not.mp hsame
  refine ⟨raws, hlog, records, n + 1, k + 1, value', hwritten, ?_, hfirst, hlast, ?_, h.faults⟩
  · exact ⟨h.numbered, h.ordered, h.marker (by simpa using hmarker), h.complete⟩
  · intro r hr
    exact (h.reached r hr).mono (Nat.le_succ k)

theorem clock_returns {m : Machine} {n : Nat} :
    (clock m).wp (fun _ => True) (fun _ _ => True) (fun _ _ => False) n := by
  simp [clock]

theorem Settles.health {m : Machine} {n : Nat} :
    (health m).wp (fun _ => True) (fun s _ => ∃ raws, m.Trusted raws s)
      (fun e _ => e = healthUnavailable) n := by
  apply Call.wp_bind.mpr
  refine Call.wp.mono clock_returns (fun started k _ => ?_) fun _ _ hnever => hnever.elim
  apply Call.wp_tryCatch.mpr
  refine Call.wp.mono Settles.sample (fun s k hs => hs) fun e k he => ?_
  rw [if_pos he]
  exact (Call.wp_throw _).mpr rfl

/-- An observation is trusted or unavailable, and a fault stays in every log that extends
the one it was found in. -/
theorem health_trusted :
    (∀ m n s, (health m n).1 = .ok s → ∃ raws, m.Trusted raws s) ∧
      (∀ m n e, (health m n).1 = .error e → e = healthUnavailable) ∧
      ∀ m m' n n' s s' raws raws', (health m n).1 = .ok s → (health m' n').1 = .ok s' →
        m.Logged raws → m'.Logged raws' → raws <+: raws' → s.dataErrors = true →
        s'.dataErrors = true := by
  refine ⟨fun m n s hs => ?_, fun m n e he => ?_, ?_⟩
  · exact Settles.health.ok hs
  · exact Settles.health.failed he
  · intro m m' n n' s s' raws raws' hs hs' hlog hlog' hprefix hfault
    obtain ⟨raws₁, hlog₁, records, _, _, _, hwritten, _, _, _, _, hexact⟩ := Settles.health.ok hs
    obtain ⟨raws₂, hlog₂, records', _, _, _, hwritten', _, _, _, _, hexact'⟩ :=
      Settles.health.ok hs'
    obtain rfl := hlog.unique hlog₁
    obtain rfl := hlog'.unique hlog₂
    obtain ⟨r, hr, hfaulty⟩ := hexact.mp hfault
    have hsub := records_subset hwritten hwritten' hprefix.subset
    exact hexact'.mpr ⟨r, hsub hr, hfaulty⟩

/-- A machine at rest whose log holds these texts. -/
def atRest (texts : List String) : Machine where
  clock := fun _ => ⟨100, by norm_num [abs_of_pos]⟩
  euid := 0
  read := fun _ path => .ok (ascii
    (if path = bootIdPath then "01234567-89ab-cdef-0123-456789abcdef\n"
    else if path = "/sys/class/thermal/thermal_zone0/type" then "cpu-thermal\n" else "48312\n"))
  command := fun _ _ _ => .ok (ascii "throttled=0x50000\n")
  openLog := fun _ => .ok ⟨true, 0⟩
  log := fun i => match texts[i]? with
    | some text => .ok (ascii text)
    | none => .error .blocking
  closeLog := fun _ => .ok ()

example : (health (atRest ["6,0,0,-;Linux version 6.12\n", "5,1,1900000,-,x=1;mmc0: Timeout\n"]) 0).1 =
    .ok ⟨.float 100, .float (roundBinary64 (48312 / 1000)), 0x50000, true⟩ := by
  decide +kernel

example : (health (atRest ["6,0,0,-;Linux version 6.12\n", "5,2,1900000,-;gap\n"]) 0).1 =
    .error healthUnavailable := by
  decide +kernel

end Health

end HccastWired.Advanced.LinuxAdvancedObserver
