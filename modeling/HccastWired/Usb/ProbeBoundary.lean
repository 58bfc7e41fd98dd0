import HccastWired.Usb.SetrProbe

/-!
# What the probe asks of a display

Whatever the library answers, the probe reconfigures nothing, writes once, reads inside
its window, keeps what it has read before it looks at it, and gives the device back.
-/

namespace HccastWired.Usb

open Foundation
open Protocol (DeviceInfo)
open SetrProbe

section Trace

/-- The event belongs to finding and claiming a device. -/
def UsbEvent.preparing : UsbEvent → Bool
  | lookup _ => true
  | getActiveConfiguration => true
  | isKernelDriverActive _ => true
  | claimInterface _ _ => true
  | _ => false

/-- The transfers of data to the device. -/
def outs (trace : List UsbEvent) : List Bytes :=
  trace.filterMap fun
    | .bulkOut data => some data
    | _ => none

def ins (trace : List UsbEvent) : List Transfer :=
  trace.filterMap fun
    | .bulkIn transfer => some transfer
    | _ => none

def files (trace : List UsbEvent) : List Bytes :=
  trace.filterMap fun
    | .writeFile raw => some raw
    | _ => none

/-- The bytes of a read that returned in time. -/
def Transfer.kept (deadline : Rat) (t : Transfer) : Bytes :=
  match t.data, t.returned with
  | .ok data, some returned => if returned ≤ deadline then data else []
  | _, _ => []

/-- The bytes of the reads that returned in time, in order. -/
def onTime (deadline : Rat) (transfers : List Transfer) : Bytes :=
  transfers.flatMap (Transfer.kept deadline)

/-- The read was asked to block for no longer than the window lasts. -/
def Transfer.bounded (responseWindowMs : Int) (deadline : Rat) (t : Transfer) : Prop :=
  t.timeoutMs ≤ wholeMillisecondsLeft deadline t.asked ∧ t.timeoutMs ≤ responseWindowMs

end Trace

section Calls

variable {lib : Library} {options : TransportOptions} {p : Port} {α : Type}
  {post : α → Port → Prop} {fail : UsbError → Port → Prop}

/-- Nothing is asked of a call that is stopped. -/
abbrev Stopped : Port → Prop := fun _ => True

@[simp] theorem wp_emit {event : UsbEvent} {post : Unit → Port → Prop} :
    (emit event).wp Stopped post fail p ↔ post () { p with trace := p.trace ++ [event] } := by
  simp [emit]

@[simp] theorem wp_clock {post : Rat → Port → Prop} :
    (HostTransport.clock lib).wp Stopped post fail p ↔
      post (lib.clock p.ticks) { p with ticks := p.ticks + 1 } := by
  simp [HostTransport.clock]

/-- The state after more events, with the clock read some times. -/
def Port.after (p : Port) (ticks : Nat) (events : List UsbEvent) : Port :=
  { p with ticks := ticks, trace := p.trace ++ events }

/-- Nothing but lookups has been made. -/
structure Searching (p : Port) : Prop where
  interface : p.interface = none
  detached : p.detached = none
  lookups : ∀ e ∈ p.trace, ∃ found, e = .lookup found

theorem Searching.looked (h : Searching p) (found : Bool) (ticks : Nat) :
    Searching (p.after ticks [.lookup found]) := by
  refine ⟨h.interface, h.detached, fun e he => ?_⟩
  obtain he | he := List.mem_append.mp he
  · exact h.lookups e he
  · exact ⟨found, List.mem_singleton.mp he⟩

/-- No device has been found. -/
structure Missing (p : Port) : Prop extends Searching p where
  absent : .lookup true ∉ p.trace

theorem Missing.looked (h : Missing p) (ticks : Nat) : Missing (p.after ticks [.lookup false]) := by
  refine ⟨h.toSearching.looked false ticks, fun hmem => ?_⟩
  obtain hmem | hmem := List.mem_append.mp hmem
  · exact h.absent hmem
  · cases List.mem_singleton.mp hmem

theorem wp_pollDevice {deadline : Rat} {answers : List (Except String Bool)} (h : Missing p) :
    (HostTransport.pollDevice lib deadline answers).wp Stopped (fun _ => Searching)
      (fun _ => Missing) p := by
  induction answers generalizing p with
  | nil => exact Call.wp_throw _ |>.mpr h
  | cons answer rest ih =>
      cases answer with
      | error message =>
          simp only [HostTransport.pollDevice, HostTransport.findDeviceOnce, Call.wp_bind,
            Call.wp_throw]
          exact h
      | ok found =>
          simp only [HostTransport.pollDevice, HostTransport.findDeviceOnce, Call.wp_bind, wp_emit,
            Call.wp_pure]
          cases found with
          | true =>
              simp only [if_true, Call.wp_pure]
              exact h.toSearching.looked true p.ticks
          | false =>
              have hnext : Missing (p.after (p.ticks + 1) [.lookup false]) := h.looked _
              simp only [Bool.false_eq_true, if_false, Call.wp_bind, wp_clock]
              split
              · exact Call.wp_throw _ |>.mpr hnext
              · exact ih hnext

theorem wp_findDevice (h : Missing p) :
    (HostTransport.findDevice lib options).wp Stopped (fun _ => Searching) (fun _ => Missing) p := by
  unfold HostTransport.findDevice
  split
  · split
    · exact Call.wp_throw _ |>.mpr h
    · next answer _ _ =>
      cases answer with
      | error message =>
          simp only [HostTransport.findDeviceOnce, Call.wp_bind, Call.wp_throw]
          exact h
      | ok found =>
          simp only [HostTransport.findDeviceOnce, Call.wp_bind, wp_emit, Call.wp_pure]
          cases found with
          | true =>
              simp only [if_true, Call.wp_pure]
              exact h.toSearching.looked true p.ticks
          | false =>
              simp only [Bool.false_eq_true, if_false, Call.wp_throw]
              exact h.looked p.ticks
  · simp only [Call.wp_bind, wp_clock]
    apply wp_pollDevice
    exact ⟨⟨h.interface, h.detached, h.lookups⟩, h.absent⟩

/-- The device is being opened; the interface is the one that was claimed, if one was. -/
structure Opening (p : Port) : Prop where
  dev : p.dev = true
  detached : p.detached = none
  preparing : ∀ e ∈ p.trace, e.preparing = true
  claimed : ∀ n, .claimInterface n true ∈ p.trace → p.interface = some n

theorem Searching.opening (h : Searching p) : Opening { p with dev := true } := by
  refine ⟨rfl, h.detached, fun e he => ?_, fun n hn => ?_⟩
  · obtain ⟨found, rfl⟩ := h.lookups e he
    rfl
  · obtain ⟨found, heq⟩ := h.lookups _ hn
    cases heq

/-- One more event of a device that is being opened. -/
theorem Opening.event (h : Opening p) {e : UsbEvent} (he : e.preparing = true)
    (hclaim : ∀ n, e ≠ .claimInterface n true) : Opening { p with trace := p.trace ++ [e] } := by
  refine ⟨h.dev, h.detached, fun e' he' => ?_, fun n hn => ?_⟩
  · obtain he' | he' := List.mem_append.mp he'
    · exact h.preparing e' he'
    · exact (List.mem_singleton.mp he').symm ▸ he
  · obtain hn | hn := List.mem_append.mp hn
    · exact h.claimed n hn
    · exact absurd (List.mem_singleton.mp hn).symm (hclaim n)

/-- The configuration is only asked for. -/
theorem wp_activeConfiguration (hactivation : options.allowConfigurationActivation = false)
    (h : Opening p) :
    (HostTransport.activeConfiguration lib options).wp Stopped
      (fun _ q => Opening q ∧ q.interface = p.interface) (fun _ => Opening) p := by
  have hnext := h.event (e := .getActiveConfiguration) rfl fun _ => nofun
  unfold HostTransport.activeConfiguration
  simp only [Call.wp_bind, wp_emit]
  split
  · exact Call.wp_pure _ |>.mpr ⟨hnext, rfl⟩
  · rw [if_pos hactivation]
    exact Call.wp_throw _ |>.mpr hnext

/-- A kernel driver stays attached. -/
theorem wp_checkDriver (hdetach : options.detachKernel = false) (h : Opening p) (number : Nat) :
    (HostTransport.checkDriver lib options number).wp Stopped
      (fun _ q => Opening q ∧ q.interface = p.interface) (fun _ => Opening) p := by
  have hnext := h.event (e := .isKernelDriverActive number) rfl fun _ => nofun
  unfold HostTransport.checkDriver
  simp only [Call.wp_bind, wp_emit, hdetach, Bool.false_eq_true, if_false]
  split
  · exact Call.wp_pure _ |>.mpr ⟨hnext, rfl⟩
  · exact Call.wp_throw _ |>.mpr hnext
  · exact Call.wp_pure _ |>.mpr ⟨hnext, rfl⟩
  · split
    · exact Call.wp_pure _ |>.mpr ⟨hnext, rfl⟩
    · exact Call.wp_throw _ |>.mpr hnext

theorem wp_claim (h : Opening p) (hfree : p.interface = none) (number : Nat) (nonDetaching : Bool) :
    (HostTransport.claim lib number nonDetaching).wp Stopped
      (fun _ q => Opening q ∧ q.interface = some number) (fun _ => Opening) p := by
  unfold HostTransport.claim
  split
  · have hnext := h.event (e := .claimInterface number false) rfl fun _ => nofun
    simp only [Call.wp_bind, wp_emit]
    split
    · exact Call.wp_throw _ |>.mpr hnext
    · exact Call.wp_throw _ |>.mpr hnext
  · rw [Call.wp_update]
    refine ⟨trivial, ⟨h.dev, h.detached, fun e he => ?_, fun n hn => ?_⟩, rfl⟩
    · obtain he | he := List.mem_append.mp he
      · exact h.preparing e he
      · rw [List.mem_singleton.mp he]
        rfl
    · obtain hn | hn := List.mem_append.mp hn
      · have hsome := h.claimed n hn
        rw [hfree] at hsome
        cases hsome
      · cases List.mem_singleton.mp hn
        rfl

/-- The device is open. -/
structure Opened (p : Port) : Prop extends Opening p where
  endpoint : p.epOut ≠ none

theorem wp_openFoundDevice (hactivation : options.allowConfigurationActivation = false)
    (hdetach : options.detachKernel = false) (h : Opening p) (hfree : p.interface = none) :
    (HostTransport.openFoundDevice lib options).wp Stopped (fun _ => Opened) (fun _ => Opening) p := by
  unfold HostTransport.openFoundDevice
  simp only [Call.wp_bind]
  apply (wp_activeConfiguration hactivation h).mono
  · rintro _ q ⟨hq, hqfree⟩
    split
    · exact Call.wp_throw _ |>.mpr hq
    · split
      · exact Call.wp_throw _ |>.mpr hq
      · next number epIn epOut _ =>
        simp only [Call.wp_bind]
        apply (wp_checkDriver hdetach hq number).mono
        · rintro nonDetaching r ⟨hr, hrfree⟩
          have hnone : r.interface = none := by rw [hrfree, hqfree, hfree]
          apply (wp_claim hr hnone number nonDetaching).mono
          · rintro _ t ⟨ht, _⟩
            rw [Call.wp_update]
            exact ⟨trivial, ⟨ht.dev, ht.detached, ht.preparing, ht.claimed⟩, fun hnone => by cases hnone⟩
          · exact fun _ _ ht => ht
        · exact fun _ _ hr => hr
  · exact fun _ _ hq => hq

/-- The events of giving a device back. -/
def releasing (interface : Option Nat) : List UsbEvent :=
  (interface.map UsbEvent.releaseInterface).toList ++ [.disposeResources]

/-- A device that was not detached from a driver is released and disposed of. -/
theorem wp_close {post : Unit → Port → Prop} (hdev : p.dev = true) (hdetached : p.detached = none)
    (hpost : ∀ q, q.trace = p.trace ++ releasing p.interface → post () q) :
    HostTransport.close.wp Stopped post fail p := by
  unfold HostTransport.close
  simp only [Call.wp_bind, Call.wp_get, hdev, if_true, hdetached]
  cases hinterface : p.interface with
  | none =>
      simp only [Call.wp_bind, wp_emit, Call.wp_update]
      refine ⟨trivial, hpost _ ?_⟩
      simp [releasing, hinterface]
  | some number =>
      simp only [Call.wp_bind, wp_emit, Call.wp_update]
      refine ⟨trivial, hpost _ ?_⟩
      simp [releasing, hinterface]

theorem Port.after_after (p : Port) (ticks ticks' : Nat) (events events' : List UsbEvent) :
    (p.after ticks events).after ticks' events' = p.after ticks' (events ++ events') := by
  simp [Port.after, List.append_assoc]

section Collection

variable {responseWindowMs : Int} {deadline now : Rat} {answer : Except ReadError Bytes}

/-- One read: what it adds to the trace, and the bytes of it that are kept. -/
theorem wp_read {post : Except String Bytes → Port → Prop}
    (hpost : ∀ t ticks value, t.bounded responseWindowMs deadline →
      (value = .ok (t.kept deadline) ∨ t.kept deadline = [] ∧ ∃ message, value = .error message) →
      (answer = .error .timeout → t.kept deadline = []) → post value (p.after ticks [.bulkIn t])) :
    (read lib responseWindowMs deadline now answer).wp Stopped post fail p := by
  have hbounded : ∀ data returned, Transfer.bounded responseWindowMs deadline
      ⟨now, min responseWindowMs (wholeMillisecondsLeft deadline now), data, returned⟩ :=
    fun _ _ => ⟨min_le_right _ _, min_le_left _ _⟩
  unfold SetrProbe.read
  cases answer with
  | error e =>
      cases e with
      | raised message =>
          simp only [Call.wp_bind, wp_emit, Call.wp_pure]
          exact hpost _ p.ticks _ (hbounded _ _) (.inr ⟨rfl, _, rfl⟩) fun hraised => by cases hraised
      | timeout =>
          simp only [Call.wp_bind, wp_clock, wp_emit, Call.wp_pure]
          apply hpost _ (p.ticks + 1) _ (hbounded _ _)
          · left
            simp [Transfer.kept]
          · intro _
            simp [Transfer.kept]
  | ok chunk =>
      simp only [Call.wp_bind, wp_clock, wp_emit, Call.wp_pure]
      apply hpost _ (p.ticks + 1) _ (hbounded _ _) _ fun hraised => by cases hraised
      left
      simp only [Transfer.kept]
      by_cases hlate : lib.clock p.ticks > deadline
      · rw [if_pos hlate, if_neg (not_le.mpr hlate)]
      · rw [if_neg hlate, if_pos (not_lt.mp hlate)]

/-- The condition holds of whatever the loop can still collect. -/
def Collects (responseWindowMs : Int) (deadline : Rat) (post : Bytes × Option String → Port → Prop)
    (p : Port) (collected : Bytes) : Prop :=
  ∀ transfers ticks value, (∀ t ∈ transfers, t.bounded responseWindowMs deadline) →
    value.1 = collected ++ onTime deadline transfers →
    post value (p.after ticks (transfers.map .bulkIn))

variable {post : Bytes × Option String → Port → Prop} {collected : Bytes} {t : Transfer}

theorem Collects.stop (h : Collects responseWindowMs deadline post p collected) (ticks : Nat) :
    post (collected, none) (p.after ticks []) :=
  h [] ticks (collected, none) (by simp) (by simp [onTime])

/-- A read of which nothing is kept ends the loop. -/
theorem Collects.last (h : Collects responseWindowMs deadline post p collected)
    (ht : t.bounded responseWindowMs deadline) (hkept : t.kept deadline = []) (ticks : Nat)
    (error : Option String) : post (collected, error) (p.after ticks [.bulkIn t]) :=
  h [t] ticks (collected, error) (by simpa using ht) (by simp [onTime, hkept])

theorem Collects.more (h : Collects responseWindowMs deadline post p collected)
    (ht : t.bounded responseWindowMs deadline) (ticks : Nat) :
    Collects responseWindowMs deadline post (p.after ticks [.bulkIn t])
      (collected ++ t.kept deadline) := by
  intro transfers ticks' value hbounded hraw
  rw [Port.after_after]
  apply h (t :: transfers) ticks' value
  · exact List.forall_mem_cons.mpr ⟨ht, hbounded⟩
  · simpa [onTime] using hraw

/-- What the loop adds to the trace are bounded reads, and it collects those in time. -/
theorem wp_collect {answers : List (Except ReadError Bytes)}
    (h : Collects responseWindowMs deadline post p collected) :
    (collect lib responseWindowMs deadline answers collected).wp Stopped post fail p := by
  induction answers generalizing p collected with
  | nil =>
      simp only [collect, Call.wp_bind, wp_clock]
      split
      · apply Call.wp_pure _ |>.mpr
        simpa [Port.after] using h.stop (p.ticks + 1)
      · simp only [Call.wp_bind, Call.wp_pure]
        apply wp_read
        intro t ticks value ht _ hnone
        exact h.last ht (hnone rfl) ticks none
  | cons answer rest ih =>
      simp only [collect, Call.wp_bind, wp_clock]
      split
      · apply Call.wp_pure _ |>.mpr
        simpa [Port.after] using h.stop (p.ticks + 1)
      · simp only [Call.wp_bind]
        apply wp_read
        intro t ticks value ht hvalue _
        obtain rfl | ⟨hkept, message, rfl⟩ := hvalue
        · cases hkept : t.kept deadline with
          | nil =>
              apply Call.wp_pure _ |>.mpr
              exact h.last ht hkept ticks none
          | cons byte chunk =>
              have hmore := h.more ht ticks
              rw [hkept] at hmore
              exact ih hmore
        · apply Call.wp_pure _ |>.mpr
          exact h.last ht hkept ticks (some message)

end Collection

section Exchange

variable {responseWindowMs : Int}

/-- The answer of a display to the probe that the application accepts. -/
def acceptedSetv (frame : Protocol.Frame) : Bool :=
  frame.command = .SETV && 320 ≤ frame.totalLength

/-- The device information of the first such frame in the bytes. -/
def deviceInfoOf (raw : Bytes) : Option DeviceInfo :=
  ((framesOf raw).find? acceptedSetv).map fun frame => Protocol.deviceInfo frame.payload

theorem firstSetv_fst (frames : List Protocol.Frame) : (firstSetv frames).1 =
    (frames.find? acceptedSetv).map fun frame => Protocol.deviceInfo frame.payload := by
  induction frames with
  | nil => rfl
  | cons frame rest ih =>
      unfold firstSetv
      split
      · next hcommand =>
        rw [List.find?_cons_of_neg (by simp [acceptedSetv, hcommand])]
        exact ih
      · next hcommand =>
        cases hparse : Protocol.parseSetv frame with
        | ok info =>
            obtain ⟨hsetv, hlength, rfl⟩ := Protocol.parseSetv_ok_iff.mp hparse
            rw [List.find?_cons_of_pos (by simp [acceptedSetv, hsetv, hlength])]
            rfl
        | error message =>
            have hshort : ¬ 320 ≤ frame.totalLength := by
              intro hlength
              have hok := Protocol.parseSetv_ok_iff.mpr ⟨not_not.mp hcommand, hlength, rfl⟩
              rw [hparse] at hok
              cases hok
            rw [List.find?_cons_of_neg (by simp [acceptedSetv, hshort])]
            exact ih

theorem framesOf_nil : framesOf [] = [] := by
  rw [framesOf, Protocol.FrameStreamParser.feed, Protocol.FrameStreamParser.loop]
  rfl

/-- What the probe does with an open device: when its window opened, if it did, what it
read, the file, and whether the bytes were looked at. -/
structure Exchange where
  opened : Option Rat
  transfers : List Transfer
  raw : Bytes
  parsed : Bool

def Exchange.events (x : Exchange) : List UsbEvent :=
  .bulkOut setrOnceBytes :: ((x.opened.map .windowOpened).toList ++ x.transfers.map .bulkIn ++
    .writeFile x.raw :: if x.parsed then [.parse x.raw] else [])

structure Exchange.Lawful (lib : Library) (responseWindowMs : Int) (x : Exchange) : Prop where
  closed : x.opened = none → x.transfers = [] ∧ x.raw = []
  opened : ∀ now, x.opened = some now →
    x.raw = onTime (deadlineOf now responseWindowMs) x.transfers ∧
      ∀ t ∈ x.transfers, t.bounded responseWindowMs (deadlineOf now responseWindowMs)
  written : x.opened.isSome = true → lib.write = .ok setrOnceBytes.length

/-- The result names the device information of the file, if there is one. -/
def SetrProbe.SetrOnceResult.Tells (r : SetrOnceResult) (raw : Bytes) : Prop :=
  (r.classification = .validSetv ↔ (deviceInfoOf raw).isSome = true) ∧ r.setv = deviceInfoOf raw

theorem wp_writeRequest (hendpoint : p.epOut ≠ none) {post : Option String → Port → Prop}
    (hpost : ∀ error, (error = none → lib.write = .ok setrOnceBytes.length) →
      post error (p.after p.ticks [.bulkOut setrOnceBytes])) :
    (writeRequest lib).wp Stopped post fail p := by
  unfold writeRequest HostTransport.writeSingleTransferNoZlp
  simp only [Call.wp_tryCatch, Call.wp_bind, Call.wp_get, hendpoint, if_false]
  have hsome : ¬ setrOnceBytes = [] := by decide
  simp only [hsome, if_false, Call.wp_bind, wp_emit]
  split
  · simp only [Call.wp_throw, Call.wp_pure]
    exact hpost _ fun hnone => by cases hnone
  · next written hwritten =>
    split
    · simp only [Call.wp_throw, Call.wp_pure]
      exact hpost _ fun hnone => by cases hnone
    · next hlength =>
      simp only [Call.wp_pure]
      apply hpost _
      intro _
      rw [hwritten, not_not.mp hlength]

theorem wp_collectResponse {error : Option String} {post : Bytes × Option String → Port → Prop}
    (hwritten : error = none → lib.write = .ok setrOnceBytes.length)
    (hpost : ∀ x : Exchange, x.Lawful lib responseWindowMs → x.opened.isSome = error.isNone →
      ∀ ticks value, value.1 = x.raw →
      post value (p.after ticks ((x.opened.map .windowOpened).toList ++ x.transfers.map .bulkIn))) :
    (collectResponse lib responseWindowMs error).wp Stopped post fail p := by
  cases error with
  | some message =>
      apply Call.wp_pure _ |>.mpr
      have hlawful : Exchange.Lawful lib responseWindowMs ⟨none, [], [], false⟩ := by
        refine ⟨fun _ => ⟨rfl, rfl⟩, ?_, ?_⟩
        · intro now hnow
          cases hnow
        · intro hopened
          cases hopened
      have h := hpost ⟨none, [], [], false⟩ hlawful rfl p.ticks ([], none) rfl
      simpa [Port.after] using h
  | none =>
      simp only [collectResponse, Call.wp_bind, wp_clock, wp_emit]
      apply wp_collect
      intro transfers ticks value hbounded hraw
      have h := hpost ⟨some (lib.clock p.ticks), transfers, value.1, false⟩
        ⟨fun hnone => (by cases hnone), fun now hnow => ?_, fun _ => hwritten rfl⟩ rfl ticks value rfl
      · simpa [Port.after] using h
      · obtain rfl := Option.some.inj hnow
        exact ⟨by simpa using hraw, hbounded⟩

/-- Looking at the bytes is no more than an event, and tells what they hold. -/
theorem wp_classify {error : Option String} {raw : Bytes} (hempty : error.isSome = true → raw = [])
    {post : Classification × Option DeviceInfo × List String → Port → Prop}
    (hpost : ∀ (parsed : Bool) value, (value.1 = .validSetv ↔ (deviceInfoOf raw).isSome = true) →
      value.2.1 = deviceInfoOf raw →
      post value (p.after p.ticks (if parsed then [.parse raw] else []))) :
    (classify error raw).wp Stopped post fail p := by
  have hnone : deviceInfoOf [] = none := by rw [deviceInfoOf, framesOf_nil]; rfl
  have hunread : ∀ value : Classification × Option DeviceInfo × List String, raw = [] →
      value.1 ≠ .validSetv → value.2.1 = none → post value p := by
    intro value hraw hinvalid hsetv
    have h := hpost false value (by simp [hraw, hnone, hinvalid]) (by rw [hsetv, hraw, hnone])
    simpa [Port.after] using h
  unfold classify
  split
  · next hfailed => exact Call.wp_pure _ |>.mpr (hunread _ (hempty hfailed) nofun rfl)
  · split
    · next hraw => exact Call.wp_pure _ |>.mpr (hunread _ hraw nofun rfl)
    · simp only [Call.wp_bind, wp_emit, Call.wp_pure]
      have hinfo : (firstSetv (framesOf raw)).1 = deviceInfoOf raw := firstSetv_fst _
      apply hpost true
      · rw [← hinfo]
        unfold classifyResponse
        split
        · next hfirst => simp [hfirst]
        · next hfirst => split <;> simp [hfirst]
      · rw [← hinfo]
        unfold classifyResponse
        split
        · next hfirst => simp [hfirst]
        · next hfirst => split <;> simp [hfirst]

/-- The probe is refused, or is one exchange; its result tells what the file holds. -/
theorem wp_runSetrOnce (hendpoint : p.epOut ≠ none) :
    (runSetrOnce lib responseWindowMs).wp Stopped
      (fun r q => ∃ x : Exchange, x.Lawful lib responseWindowMs ∧ r.Tells x.raw ∧
        ∃ ticks, q = p.after ticks x.events)
      (fun _ q => q = p ∨ ∃ x : Exchange, x.Lawful lib responseWindowMs ∧
        ∃ ticks, q = p.after ticks x.events) p := by
  unfold runSetrOnce
  by_cases hwindow : minResponseWindowMs ≤ responseWindowMs ∧ responseWindowMs ≤ maxResponseWindowMs
  · rw [if_neg (not_not.mpr hwindow)]
    simp only [Call.wp_bind]
    apply wp_writeRequest hendpoint
    intro error hwritten
    apply wp_collectResponse hwritten
    intro x hx hopened ticks value hraw
    have hempty : error.isSome = true → x.raw = [] := by
      intro hfailed
      have hclosed : x.opened = none := by
        cases error <;> cases hx : x.opened <;> simp_all
      exact (hx.closed hclosed).2
    have hlawful : ∀ parsed, Exchange.Lawful lib responseWindowMs { x with parsed := parsed } :=
      fun _ => ⟨hx.closed, hx.opened, hx.written⟩
    obtain ⟨raw, readError⟩ := value
    obtain rfl : raw = x.raw := hraw
    simp only [wp_emit]
    cases lib.writeFile with
    | error message =>
        apply Call.wp_throw _ |>.mpr
        right
        refine ⟨_, hlawful false, ticks, ?_⟩
        simp [Port.after, Exchange.events, List.append_assoc]
    | ok _ =>
        simp only [Call.wp_bind]
        apply wp_classify hempty
        intro parsed result hvalid hsetv
        apply Call.wp_pure _ |>.mpr
        refine ⟨_, hlawful parsed, ⟨hvalid, hsetv⟩, ticks, ?_⟩
        simp [Port.after, Exchange.events, List.append_assoc]
  · rw [if_pos hwindow]
    exact Call.wp_throw _ |>.mpr (.inl rfl)

end Exchange

/-- The ways a run ends: without a device, while it is being opened, or after an exchange or
a refusal; the device that was found is given back. -/
inductive Ended (lib : Library) (responseWindowMs : Int) (value : Option SetrOnceResult) :
    List UsbEvent → Prop
  | missing {trace : List UsbEvent} (hvalue : value = none)
      (hlookups : ∀ e ∈ trace, e = .lookup false) : Ended lib responseWindowMs value trace
  | refused {trace : List UsbEvent} {interface : Option Nat} (hvalue : value = none)
      (hpreparing : ∀ e ∈ trace, e.preparing = true)
      (hclaimed : ∀ n, .claimInterface n true ∈ trace → interface = some n) :
      Ended lib responseWindowMs value (trace ++ releasing interface)
  | exchanged {trace : List UsbEvent} {interface : Option Nat} {x : Exchange}
      (hvalue : ∀ r, value = some r → r.Tells x.raw)
      (hpreparing : ∀ e ∈ trace, e.preparing = true)
      (hclaimed : ∀ n, .claimInterface n true ∈ trace → interface = some n)
      (hlawful : x.Lawful lib responseWindowMs) :
      Ended lib responseWindowMs value (trace ++ x.events ++ releasing interface)

theorem wp_open (hactivation : options.allowConfigurationActivation = false)
    (hdetach : options.detachKernel = false) (responseWindowMs : Int) :
    (HostTransport.open lib options).wp Stopped (fun _ => Opened)
      (fun _ q => Ended lib responseWindowMs none q.trace) Port.initial := by
  have hstart : Missing Port.initial := ⟨⟨rfl, rfl, nofun⟩, nofun⟩
  unfold HostTransport.open
  simp only [Call.wp_bind]
  apply (wp_findDevice hstart).mono
  · intro _ q hq
    rw [Call.wp_update]
    refine ⟨trivial, ?_⟩
    rw [Call.wp_tryCatch]
    apply (wp_openFoundDevice hactivation hdetach hq.opening hq.interface).mono
    · exact fun _ _ h => h
    · intro e r hr
      simp only [Call.wp_bind, Call.wp_throw]
      apply wp_close hr.dev hr.detached
      intro t ht
      rw [ht]
      exact .refused rfl hr.preparing hr.claimed
  · intro _ q hq
    apply Ended.missing rfl
    intro e he
    obtain ⟨found, rfl⟩ := hq.lookups e he
    cases found with
    | true => exact absurd he hq.absent
    | false => rfl

theorem wp_report {responseWindowMs : Int} (hendpoint : p.epOut ≠ none) :
    (report lib responseWindowMs).wp Stopped
      (fun value q => ∃ x : Exchange, x.Lawful lib responseWindowMs ∧ value.2.Tells x.raw ∧
        ∃ ticks, q = p.after ticks x.events)
      (fun _ q => q = p ∨ ∃ x : Exchange, x.Lawful lib responseWindowMs ∧
        ∃ ticks, q = p.after ticks x.events) p := by
  unfold report
  simp only [Call.wp_bind]
  apply (wp_runSetrOnce hendpoint).mono
  · rintro r q ⟨x, hlawful, htells, ticks, hq⟩
    cases lib.print with
    | error message => exact Call.wp_throw _ |>.mpr (.inr ⟨x, hlawful, ticks, hq⟩)
    | ok _ => exact Call.wp_pure _ |>.mpr ⟨x, hlawful, htells, ticks, hq⟩
  · exact fun _ _ h => h

theorem wp_commandHostSetrOnce (interfaceNumber : Option Nat) (tryClaimWithKernelDriver : Bool)
    (waitSeconds : Rat) (responseWindowMs : Int) :
    (commandHostSetrOnce lib interfaceNumber tryClaimWithKernelDriver waitSeconds
      responseWindowMs).wp Stopped
      (fun value q => Ended lib responseWindowMs (some value.2) q.trace)
      (fun _ q => Ended lib responseWindowMs none q.trace) Port.initial := by
  unfold commandHostSetrOnce
  simp only [Call.wp_bind]
  apply (wp_open rfl rfl responseWindowMs).mono
  · intro _ p hp
    rw [Call.wp_tryCatch]
    apply (wp_report hp.endpoint).mono
    · rintro value q ⟨x, hlawful, htells, ticks, rfl⟩
      simp only [Call.wp_pure]
      apply wp_close
      · exact hp.dev
      · exact hp.detached
      · intro t ht
        rw [ht]
        apply Ended.exchanged _ hp.preparing hp.claimed hlawful
        intro r hr
        exact Option.some.inj hr ▸ htells
    · rintro e q (rfl | ⟨x, hlawful, ticks, rfl⟩)
      · simp only [Call.wp_bind, Call.wp_throw]
        apply wp_close hp.dev hp.detached
        intro t ht
        rw [ht]
        exact .refused rfl hp.preparing hp.claimed
      · simp only [Call.wp_bind, Call.wp_throw]
        apply wp_close
        · exact hp.dev
        · exact hp.detached
        · intro t ht
          rw [ht]
          exact .exchanged (fun r hr => by cases hr) hp.preparing hp.claimed hlawful
  · exact fun _ _ h => h

end Calls

section Boundary

variable {lib : Library} {responseWindowMs : Int} {value : Option SetrOnceResult}
  {trace : List UsbEvent}

/-- The requests that change how the device is used by others. -/
def UsbEvent.intrusive : UsbEvent → Bool
  | setConfiguration => true
  | detachKernelDriver _ => true
  | _ => false

/-- What the operator of the probe has authorized. -/
structure Authorized (lib : Library) (responseWindowMs : Int) (value : Option SetrOnceResult)
    (trace : List UsbEvent) : Prop where
  unobtrusive : ∀ e ∈ trace, e.intrusive = false
  request : outs trace = [] ∨ outs trace = [setrOnceBytes]
  once : (files trace).length = (outs trace).length
  preserved : ∀ before raw after, trace = before ++ .parse raw :: after → .writeFile raw ∈ before
  collected : ∀ now, .windowOpened now ∈ trace →
    files trace = [onTime (deadlineOf now responseWindowMs) (ins trace)] ∧
      ∀ t ∈ ins trace, t.bounded responseWindowMs (deadlineOf now responseWindowMs)
  unread : lib.write ≠ .ok setrOnceBytes.length → ins trace = [] ∧ ∀ raw ∈ files trace, raw = []
  told : ∀ r, value = some r → ∃ raw, files trace = [raw] ∧ r.Tells raw
  released : .lookup true ∈ trace → .disposeResources ∈ trace ∧
    ∀ n, .claimInterface n true ∈ trace → .releaseInterface n ∈ trace

/-- Events that transfer nothing, keep nothing and look at nothing. -/
structure Uneventful (trace : List UsbEvent) : Prop where
  unobtrusive : ∀ e ∈ trace, e.intrusive = false
  outs : outs trace = []
  ins : ins trace = []
  files : files trace = []
  opened : ∀ now, .windowOpened now ∉ trace
  parsed : ∀ raw, .parse raw ∉ trace

theorem uneventful_nil : Uneventful [] :=
  ⟨nofun, rfl, rfl, rfl, fun _ => nofun, fun _ => nofun⟩

theorem Uneventful.append {later : List UsbEvent} (h : Uneventful trace) (h' : Uneventful later) :
    Uneventful (trace ++ later) where
  unobtrusive e he := (List.mem_append.mp he).elim (h.unobtrusive e) (h'.unobtrusive e)
  outs := by rw [Usb.outs, List.filterMap_append]; exact congrArg₂ (· ++ ·) h.outs h'.outs
  ins := by rw [Usb.ins, List.filterMap_append]; exact congrArg₂ (· ++ ·) h.ins h'.ins
  files := by rw [Usb.files, List.filterMap_append]; exact congrArg₂ (· ++ ·) h.files h'.files
  opened now hnow := (List.mem_append.mp hnow).elim (h.opened now) (h'.opened now)
  parsed raw hraw := (List.mem_append.mp hraw).elim (h.parsed raw) (h'.parsed raw)

theorem uneventful_preparing (h : ∀ e ∈ trace, e.preparing = true) : Uneventful trace := by
  induction trace with
  | nil => exact uneventful_nil
  | cons e rest ih =>
      obtain ⟨he, hrest⟩ := List.forall_mem_cons.mp h
      refine @Uneventful.append [e] rest ?_ (ih hrest)
      cases e <;> simp [UsbEvent.preparing] at he <;>
        exact ⟨by simp [UsbEvent.intrusive], rfl, rfl, rfl, by simp, by simp⟩

theorem uneventful_releasing (interface : Option Nat) : Uneventful (releasing interface) := by
  cases interface <;>
    exact ⟨by simp [releasing, UsbEvent.intrusive], rfl, rfl, rfl, by simp [releasing],
      by simp [releasing]⟩

/-- Without an exchange there is nothing to collect. -/
theorem Uneventful.authorized (h : Uneventful trace) (hvalue : value = none)
    (hreleased : .lookup true ∈ trace → .disposeResources ∈ trace ∧
      ∀ n, .claimInterface n true ∈ trace → .releaseInterface n ∈ trace) :
    Authorized lib responseWindowMs value trace where
  unobtrusive := h.unobtrusive
  request := .inl h.outs
  once := by rw [h.files, h.outs]
  preserved before raw after htrace := absurd (htrace ▸ by simp) (h.parsed raw)
  collected now hnow := absurd hnow (h.opened now)
  unread _ := ⟨h.ins, by simp [h.files]⟩
  told r hr := by rw [hvalue] at hr; cases hr
  released := hreleased

/-- What is not in the front of a list comes after all of it. -/
theorem prefix_of_not_mem {α : Type*} {front rest before after : List α} {a : α}
    (h : front ++ rest = before ++ a :: after) (hfront : a ∉ front) : front <+: before := by
  obtain ⟨c, rfl, -⟩ | ⟨c, rfl, hc⟩ := List.append_eq_append_iff.mp h
  · exact List.prefix_append front c
  · cases c with
    | nil => simp
    | cons b rest =>
        obtain ⟨rfl, -⟩ := List.cons.inj hc
        exact absurd (by simp) hfront

/-- The exchange up to the time that the file is kept. -/
def Exchange.front (x : Exchange) : List UsbEvent :=
  .bulkOut setrOnceBytes :: ((x.opened.map .windowOpened).toList ++ x.transfers.map .bulkIn) ++
    [.writeFile x.raw]

def Exchange.looks (x : Exchange) : List UsbEvent :=
  if x.parsed then [.parse x.raw] else []

theorem Exchange.events_eq (x : Exchange) : x.events = x.front ++ x.looks := by
  simp [events, front, looks]

theorem Exchange.parse_not_mem_front (x : Exchange) (raw : Bytes) : .parse raw ∉ x.front := by
  simp [front]

theorem Exchange.mem_looks {x : Exchange} {e : UsbEvent} (h : e ∈ x.looks) : e = .parse x.raw := by
  unfold looks at h
  split at h
  · exact List.mem_singleton.mp h
  · cases h

theorem Exchange.outs_events (x : Exchange) : outs x.events = [setrOnceBytes] := by
  have hreads : (x.transfers.map UsbEvent.bulkIn).filterMap (fun
      | .bulkOut data => some data
      | _ => none) = [] := by
    simp [List.filterMap_map]
  cases hopened : x.opened <;> cases hparsed : x.parsed <;>
    simp [events, outs, hopened, hparsed, List.filterMap_append, hreads]

theorem Exchange.ins_events (x : Exchange) : ins x.events = x.transfers := by
  have hreads : (x.transfers.map UsbEvent.bulkIn).filterMap (fun
      | .bulkIn transfer => some transfer
      | _ => none) = x.transfers := by
    simp [List.filterMap_map]
  cases hopened : x.opened <;> cases hparsed : x.parsed <;>
    simp [events, ins, hopened, hparsed, List.filterMap_append, hreads]

theorem Exchange.files_events (x : Exchange) : files x.events = [x.raw] := by
  have hreads : (x.transfers.map UsbEvent.bulkIn).filterMap (fun
      | .writeFile raw => some raw
      | _ => none) = [] := by
    simp [List.filterMap_map]
  cases hopened : x.opened <;> cases hparsed : x.parsed <;>
    simp [events, files, hopened, hparsed, List.filterMap_append, hreads]

theorem Exchange.mem_events {x : Exchange} {e : UsbEvent} (h : e ∈ x.events) :
    e = .bulkOut setrOnceBytes ∨ (∃ now, x.opened = some now ∧ e = .windowOpened now) ∨
      (∃ t ∈ x.transfers, e = .bulkIn t) ∨ e = .writeFile x.raw ∨ e ∈ x.looks := by
  simp only [events, List.mem_cons, List.mem_append, List.mem_map, Option.mem_toList,
    Option.map_eq_some_iff] at h
  obtain rfl | (⟨now, hnow, rfl⟩ | ⟨t, ht, rfl⟩) | rfl | h := h
  · exact .inl rfl
  · exact .inr (.inl ⟨now, hnow, rfl⟩)
  · exact .inr (.inr (.inl ⟨t, ht, rfl⟩))
  · exact .inr (.inr (.inr (.inl rfl)))
  · exact .inr (.inr (.inr (.inr h)))

theorem Exchange.opened_of_mem {x : Exchange} {now : Rat} (h : .windowOpened now ∈ x.events) :
    x.opened = some now := by
  obtain h | ⟨now', hnow, h⟩ | ⟨t, -, h⟩ | h | h := x.mem_events h
  · cases h
  · cases h
    exact hnow
  · cases h
  · cases h
  · cases Exchange.mem_looks h

theorem Exchange.not_intrusive (x : Exchange) : ∀ e ∈ x.events, e.intrusive = false := by
  intro e he
  obtain rfl | ⟨now, -, rfl⟩ | ⟨t, -, rfl⟩ | rfl | h := x.mem_events he
  · rfl
  · rfl
  · rfl
  · rfl
  · rw [Exchange.mem_looks h]
    rfl

/-- An exchange stays inside what is authorized. -/
theorem Exchange.Lawful.authorized {x : Exchange} {later : List UsbEvent}
    (h : x.Lawful lib responseWindowMs) (hvalue : ∀ r, value = some r → r.Tells x.raw)
    (hbefore : Uneventful trace) (hlater : Uneventful later)
    (hreleased : .lookup true ∈ trace ++ x.events ++ later →
      .disposeResources ∈ trace ++ x.events ++ later ∧
        ∀ n, .claimInterface n true ∈ trace ++ x.events ++ later →
          .releaseInterface n ∈ trace ++ x.events ++ later) :
    Authorized lib responseWindowMs value (trace ++ x.events ++ later) := by
  have houts : outs (trace ++ x.events ++ later) = [setrOnceBytes] := by
    have hboth := hbefore.outs
    have hrest := hlater.outs
    have hmid := x.outs_events
    simp only [outs, List.filterMap_append] at *
    rw [hboth, hrest, hmid]
    rfl
  have hins : ins (trace ++ x.events ++ later) = x.transfers := by
    have hboth := hbefore.ins
    have hrest := hlater.ins
    have hmid := x.ins_events
    simp only [ins, List.filterMap_append] at *
    rw [hboth, hrest, hmid, List.nil_append, List.append_nil]
  have hfiles : files (trace ++ x.events ++ later) = [x.raw] := by
    have hboth := hbefore.files
    have hrest := hlater.files
    have hmid := x.files_events
    simp only [files, List.filterMap_append] at *
    rw [hboth, hrest, hmid]
    rfl
  constructor
  · intro e he
    simp only [List.mem_append] at he
    obtain (he | he) | he := he
    · exact hbefore.unobtrusive e he
    · exact x.not_intrusive e he
    · exact hlater.unobtrusive e he
  · exact .inr houts
  · rw [hfiles, houts]
    rfl
  · intro before raw after htrace
    rw [x.events_eq] at htrace
    have hparse : UsbEvent.parse raw ∈ x.looks ++ later := by
      have hmem : UsbEvent.parse raw ∈ trace ++ (x.front ++ x.looks) ++ later := by
        rw [htrace]
        simp
      simp only [List.mem_append] at hmem ⊢
      obtain (hmem | hmem | hmem) | hmem := hmem
      · exact absurd hmem (hbefore.parsed raw)
      · exact absurd hmem (x.parse_not_mem_front raw)
      · exact .inl hmem
      · exact .inr hmem
    have hraw : raw = x.raw := by
      obtain hmem | hmem := List.mem_append.mp hparse
      · exact UsbEvent.parse.inj (Exchange.mem_looks hmem)
      · exact absurd hmem (hlater.parsed raw)
    have hsplit : (trace ++ x.front) ++ (x.looks ++ later) = before ++ .parse raw :: after := by
      rw [← htrace]
      simp [List.append_assoc]
    have hprefix := prefix_of_not_mem hsplit fun hmem =>
      (List.mem_append.mp hmem).elim (hbefore.parsed raw) (x.parse_not_mem_front raw)
    apply hprefix.subset
    rw [hraw]
    simp [front]
  · intro now hnow
    simp only [List.mem_append] at hnow
    obtain (hnow | hnow) | hnow := hnow
    · exact absurd hnow (hbefore.opened now)
    · rw [hfiles, hins]
      obtain ⟨hraw, hbounded⟩ := h.opened now (x.opened_of_mem hnow)
      exact ⟨by rw [hraw], hbounded⟩
    · exact absurd hnow (hlater.opened now)
  · intro hunwritten
    have hclosed : x.opened = none := by
      by_contra hopened
      exact hunwritten (h.written (Option.isSome_iff_ne_none.mpr hopened))
    rw [hins, hfiles]
    obtain ⟨htransfers, hraw⟩ := h.closed hclosed
    exact ⟨htransfers, by simp [hraw]⟩
  · intro r hr
    exact ⟨x.raw, hfiles, hvalue r hr⟩
  · exact hreleased

/-- A device that was found is given back with the interface that was claimed. -/
theorem mem_releasing {interface : Option Nat} {n : Nat} (h : interface = some n) :
    .releaseInterface n ∈ releasing interface := by
  rw [h]
  simp [releasing]

theorem Ended.authorized (h : Ended lib responseWindowMs value trace) :
    Authorized lib responseWindowMs value trace := by
  cases h with
  | missing hvalue hlookups =>
      apply Uneventful.authorized _ hvalue
      · exact fun hfound => nomatch hlookups _ hfound
      · apply uneventful_preparing
        intro e he
        rw [hlookups e he]
        rfl
  | @refused trace interface hvalue hpreparing hclaimed =>
      have hbefore := uneventful_preparing hpreparing
      apply (hbefore.append (uneventful_releasing interface)).authorized hvalue
      intro _
      refine ⟨by simp [releasing], fun n hn => ?_⟩
      obtain hn | hn := List.mem_append.mp hn
      · exact List.mem_append_right _ (mem_releasing (hclaimed n hn))
      · cases interface <;> simp [releasing] at hn
  | @exchanged trace interface x hvalue hpreparing hclaimed hlawful =>
      apply hlawful.authorized hvalue (uneventful_preparing hpreparing)
        (uneventful_releasing interface)
      intro _
      refine ⟨by simp [releasing], fun n hn => ?_⟩
      simp only [List.mem_append] at hn
      obtain (hn | hn) | hn := hn
      · exact List.mem_append_right _ (mem_releasing (hclaimed n hn))
      · obtain h | ⟨now, -, h⟩ | ⟨t, -, h⟩ | h | h := x.mem_events hn
        · cases h
        · cases h
        · cases h
        · cases h
        · cases Exchange.mem_looks h
      · cases interface <;> simp [releasing] at hn

/-- Whatever the library answers and whatever the clock shows, a run of the command stays
inside what is authorized. -/
theorem setr_once_authorized (lib : Library) (interfaceNumber : Option Nat)
    (tryClaimWithKernelDriver : Bool) (waitSeconds : Rat) (responseWindowMs : Int) :
    let call := commandHostSetrOnce lib interfaceNumber tryClaimWithKernelDriver waitSeconds
      responseWindowMs
    Authorized lib responseWindowMs ((call .initial).1.toOption.map Prod.snd)
      (call.final .initial).trace := by
  intro call
  have hwp : call.wp Stopped (fun value q => Ended lib responseWindowMs (some value.2) q.trace)
      (fun _ q => Ended lib responseWindowMs none q.trace) .initial :=
    wp_commandHostSetrOnce interfaceNumber tryClaimWithKernelDriver waitSeconds responseWindowMs
  cases hvalue : (call .initial).1 with
  | ok value => exact (hwp.ok hvalue).authorized
  | error e => exact (hwp.failed hvalue).authorized

end Boundary

end HccastWired.Usb
