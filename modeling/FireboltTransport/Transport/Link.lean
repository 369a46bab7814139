/-
# The link of a transport

A transport follows the state of its channel in `_connected` and `_status` and
tells its listener about changes.  A job on the worker pool waits for the link
after construction: `WaitForLinkReady` polls in slices of 100 ms until the wait
time is used up, the link is open or `_status` has changed, and the job reports
a timeout when the wait failed.

Other threads change what is polled at any moment, so the values that successive
polls read are an arbitrary schedule.
-/

import FireboltTransport.Common

namespace FireboltTransport.Transport

/-- One call of the listener. -/
structure Notification where
  connected : Bool
  error : Error
  deriving DecidableEq, Repr

/-- `_connected` and `_status`. -/
structure Link where
  connected : Bool
  status : Error
  deriving DecidableEq, Repr

namespace Link

/-- A link as the constructor of the transport leaves it. -/
def new : Link := ⟨false, .notConnected⟩

/-- `Transport::Opened`, and what it tells the listener. -/
def opened (link : Link) : Link × List Notification :=
  if link.connected ≠ true then (⟨true, .none⟩, [⟨true, .none⟩])
  else ({ link with status := .none }, [])

/-- `Transport::Closed` after it has emptied `_pendingQueue`. -/
def closed (link : Link) : Link × List Notification :=
  if link.connected ≠ false then
    ({ link with connected := false }, [⟨false, link.status⟩])
  else (link, [])

@[simp]
theorem opened_connected (link : Link) : link.opened.1.connected = true := by
  unfold opened
  split_ifs with hconnected
  · rfl
  · simpa using hconnected

@[simp]
theorem closed_connected (link : Link) : link.closed.1.connected = false := by
  unfold closed
  split_ifs with hconnected
  · rfl
  · simpa using hconnected

end Link

/-- `Transport::NotifyStatus`. -/
def notifyStatus (status : Error) : List Notification := [⟨false, status⟩]

/-! ## Waiting for the link -/

/-- `WPEFramework::Core::infinite`, the largest `uint32_t`. -/
def infinite : UInt32 := 0xFFFFFFFF

/-- `SLEEPSLOT_TIME`. -/
def sleepSlotTime : UInt32 := 100

/-- What successive polls of `IsOpen()` and of `_status` read. -/
structure Polls where
  isOpen : ℕ → Bool
  status : ℕ → Error

/-- An iteration of the loop: `waiting` at its start and its `sleepSlot`. -/
structure Slice where
  waiting : UInt32
  sleepSlot : UInt32
  deriving DecidableEq, Repr

/-- The time the iterations have slept. -/
def slept (slices : List Slice) : ℕ := (slices.map fun slice => slice.sleepSlot.toNat).sum

/-- A wait that has ended. -/
structure Wait where
  slices : List Slice
  /-- What the last call of `IsOpen()` returned, if there was one. -/
  lastCheck : Option Bool
  result : Error
  deriving DecidableEq, Repr

/-- The `return` statement of `WaitForLinkReady`; it polls the link once more, unless
`waiting` is zero. -/
def Polls.finish (polls : Polls) (waiting : UInt32) (check : ℕ) (lastCheck : Option Bool)
    (slices : List Slice) : Wait :=
  if waiting = 0 then ⟨slices, lastCheck, .none⟩
  else if polls.isOpen check then ⟨slices, some true, .none⟩
  else ⟨slices, some false, .timedout⟩

/-- The loop of `WaitForLinkReady` from the `check`-th evaluation of its condition on, or
`none` when the fuel is used up. -/
def Polls.loop (polls : Polls) :
    ℕ → UInt32 → ℕ → Option Bool → List Slice → Option Wait
  | 0, _, _, _, _ => none
  | fuel + 1, waiting, check, lastCheck, slices =>
      if waiting > 0 then
        if polls.isOpen check = false then
          if polls.status check = .notConnected then
            let sleepSlot := if waiting > sleepSlotTime then sleepSlotTime else waiting
            polls.loop fuel (waiting - (if waiting = infinite then 0 else sleepSlot)) (check + 1)
              (some false) (slices ++ [⟨waiting, sleepSlot⟩])
          else some (polls.finish waiting (check + 1) (some false) slices)
        else some (polls.finish waiting (check + 1) (some true) slices)
      else some (polls.finish waiting check lastCheck slices)

/-- `Transport::WaitForLinkReady`. -/
def Polls.waitForLinkReady (polls : Polls) (waitTime : UInt32) (fuel : ℕ) : Option Wait :=
  polls.loop fuel waitTime 0 none []

/-- `ConnectionJob::Dispatch` after the wait: what the listener is told. -/
def dispatch (result : Error) : List Notification :=
  if Error.none ≠ result then notifyStatus .timedout else []

@[simp]
theorem slept_append (slices : List Slice) (slice : Slice) :
    slept (slices ++ [slice]) = slept slices + slice.sleepSlot.toNat := by
  simp [slept]

/-- The listener hears of a timeout when the wait did not succeed, and of nothing else. -/
theorem mem_dispatch {result : Error} {notification : Notification} :
    notification ∈ dispatch result ↔ notification = ⟨false, .timedout⟩ ∧ result ≠ .none := by
  unfold dispatch notifyStatus
  split_ifs with hresult
  · simp [Ne.symm hresult]
  · simp [(not_not.mp hresult).symm]

namespace Polls

variable {polls : Polls} {waitTime waiting : UInt32} {check : ℕ} {lastCheck : Option Bool}
  {slices : List Slice}

/-- A poll that ends the loop is made before the wait time is used up. -/
def FindsChange (polls : Polls) (waitTime : UInt32) : Prop :=
  ∃ check, 100 * check < waitTime.toNat ∧
    (polls.isOpen check = true ∨ polls.status check ≠ .notConnected)

/-- What holds whenever the loop condition is evaluated. -/
structure Looping (polls : Polls) (waitTime waiting : UInt32) (check : ℕ)
    (lastCheck : Option Bool) (slices : List Slice) : Prop where
  finite : waiting ≠ infinite
  accounted : slept slices + waiting.toNat = waitTime.toNat
  no_underflow : ∀ slice ∈ slices, slice.sleepSlot ≤ slice.waiting
  lastCheck_closed : lastCheck ≠ some true
  unchanged : ∀ earlier, earlier < check →
    polls.isOpen earlier = false ∧ polls.status earlier = .notConnected
  /-- Every slice but the last is a whole one. -/
  whole : 0 < waiting → 100 * check + waiting.toNat = waitTime.toNat
  used : waiting = 0 → waitTime.toNat ≤ 100 * check

theorem looping_start (hfinite : waitTime ≠ infinite) :
    Looping polls waitTime waitTime 0 none [] where
  finite := hfinite
  accounted := by simp [slept]
  no_underflow := by simp
  lastCheck_closed := by simp
  unchanged := by simp
  whole := by simp
  used := by
    rintro rfl
    simp

/-- How a wait has ended. -/
structure Ended (polls : Polls) (waitTime : UInt32) (wait : Wait) : Prop where
  slept_le : slept wait.slices ≤ waitTime.toNat
  no_underflow : ∀ slice ∈ wait.slices, slice.sleepSlot ≤ slice.waiting
  /-- Either the wait time was used up by polls that all found the link down, or a poll ended
  the loop and the link was polled once more. -/
  verdict :
    (¬ polls.FindsChange waitTime ∧ wait.lastCheck ≠ some true ∧ wait.result = .none) ∨
    (polls.FindsChange waitTime ∧ ∃ final, wait.lastCheck = some (polls.isOpen final) ∧
      wait.result = if polls.isOpen final then .none else .timedout)

/-- A loop that ends with time left has polled a change, and polls the link again. -/
theorem Looping.ended_of_change (hlooping : Looping polls waitTime waiting check lastCheck slices)
    (hwaiting : 0 < waiting)
    (hchange : polls.isOpen check = true ∨ polls.status check ≠ .notConnected)
    (seen : Option Bool) : Ended polls waitTime (polls.finish waiting (check + 1) seen slices) := by
  have hpositive : waiting ≠ 0 := (UInt32.pos_iff_ne_zero.mp hwaiting)
  have hvalue : 0 < waiting.toNat := UInt32.lt_iff_toNat_lt.mp hwaiting
  have hwhole := hlooping.whole hwaiting
  have haccounted := hlooping.accounted
  have hfinds : polls.FindsChange waitTime := ⟨check, by omega, hchange⟩
  unfold finish
  rw [if_neg hpositive]
  split_ifs with hopen
  · exact ⟨by show slept slices ≤ _; omega, hlooping.no_underflow,
      .inr ⟨hfinds, check + 1, by rw [hopen], by rw [if_pos hopen]⟩⟩
  · have hclosed : polls.isOpen (check + 1) = false := by simpa using hopen
    exact ⟨by show slept slices ≤ _; omega, hlooping.no_underflow,
      .inr ⟨hfinds, check + 1, by rw [hclosed], by rw [if_neg hopen]⟩⟩

/-- A loop that has used its time up reports success without another poll. -/
theorem Looping.ended_of_used (hlooping : Looping polls waitTime 0 check lastCheck slices) :
    Ended polls waitTime (polls.finish 0 check lastCheck slices) := by
  have hused := hlooping.used rfl
  have haccounted := hlooping.accounted
  have hmissed : ¬ polls.FindsChange waitTime := by
    rintro ⟨earlier, htime, hchange⟩
    obtain ⟨hclosed, hstatus⟩ := hlooping.unchanged earlier (by omega)
    rcases hchange with hopen | hother
    · rw [hclosed] at hopen
      cases hopen
    · exact hother hstatus
  unfold finish
  rw [if_pos rfl]
  exact ⟨by show slept slices ≤ _; omega, hlooping.no_underflow,
    .inl ⟨hmissed, hlooping.lastCheck_closed, rfl⟩⟩

/-- Another iteration sleeps a slice that fits into what is left. -/
theorem Looping.iterate (hlooping : Looping polls waitTime waiting check lastCheck slices)
    (hwaiting : 0 < waiting) (hclosed : polls.isOpen check = false)
    (hstatus : polls.status check = .notConnected) {sleepSlot : UInt32}
    (hslot : sleepSlot = if waiting > sleepSlotTime then sleepSlotTime else waiting) :
    Looping polls waitTime (waiting - sleepSlot) (check + 1) (some false)
        (slices ++ [⟨waiting, sleepSlot⟩]) ∧
      (waiting - sleepSlot).toNat < waiting.toNat := by
  have hvalue : 0 < waiting.toNat := UInt32.lt_iff_toNat_lt.mp hwaiting
  have hmost : sleepSlotTime.toNat = 100 := rfl
  have hcut : sleepSlot.toNat = min 100 waiting.toNat := by
    rw [hslot]
    split_ifs with hlong
    · have hlt := UInt32.lt_iff_toNat_lt.mp hlong
      omega
    · have hle := UInt32.le_iff_toNat_le.mp (UInt32.not_lt.mp hlong)
      omega
  have hle : sleepSlot ≤ waiting := UInt32.le_iff_toNat_le.mpr (by omega)
  have hsub : (waiting - sleepSlot).toNat = waiting.toNat - sleepSlot.toNat :=
    UInt32.toNat_sub_of_le _ _ hle
  have hbound := waiting.toNat_lt
  have hwhole := hlooping.whole hwaiting
  have haccounted := hlooping.accounted
  refine ⟨⟨?_, ?_, ?_, by simp, ?_, ?_, ?_⟩, by omega⟩
  · intro hequal
    have hinfinite := congrArg UInt32.toNat hequal
    have hlargest : infinite.toNat = 4294967295 := rfl
    omega
  · rw [slept_append]
    show slept slices + sleepSlot.toNat + (waiting - sleepSlot).toNat = _
    omega
  · intro slice hslice
    rcases List.mem_append.mp hslice with hearlier | hlast
    · exact hlooping.no_underflow slice hearlier
    · obtain rfl := List.mem_singleton.mp hlast
      exact hle
  · intro earlier hearlier
    rcases Nat.lt_succ_iff_lt_or_eq.mp hearlier with hlt | rfl
    · exact hlooping.unchanged earlier hlt
    · exact ⟨hclosed, hstatus⟩
  · intro hleft
    have hleft := UInt32.lt_iff_toNat_lt.mp hleft
    rw [hsub] at hleft ⊢
    have hzero : (0 : UInt32).toNat = 0 := rfl
    omega
  · intro hleft
    have hleft := congrArg UInt32.toNat hleft
    rw [hsub] at hleft
    have hzero : (0 : UInt32).toNat = 0 := rfl
    omega

/-- From any evaluation of its condition, the loop ends as soon as the fuel exceeds what is
left to wait, and always in the same way. -/
theorem Looping.terminates (fuel : ℕ) :
    ∀ {waiting : UInt32} {check : ℕ} {lastCheck : Option Bool} {slices : List Slice},
      Looping polls waitTime waiting check lastCheck slices → waiting.toNat ≤ fuel →
        ∃ wait, Ended polls waitTime wait ∧
          ∀ more, polls.loop (fuel + 1 + more) waiting check lastCheck slices = some wait := by
  induction fuel with
  | zero =>
      intro waiting check lastCheck slices hlooping hfuel
      obtain rfl : waiting = 0 := UInt32.toNat_inj.mp (Nat.le_zero.mp hfuel)
      refine ⟨_, hlooping.ended_of_used, fun more => ?_⟩
      rw [Nat.zero_add, Nat.add_comm]
      simp [loop]
  | succ fuel ih =>
      intro waiting check lastCheck slices hlooping hfuel
      by_cases hwaiting : waiting > 0
      swap
      · obtain rfl : waiting = 0 := by simpa using hwaiting
        refine ⟨_, hlooping.ended_of_used, fun more => ?_⟩
        rw [Nat.add_right_comm]
        simp [loop]
      by_cases hclosed : polls.isOpen check = false
      swap
      · have hopen : polls.isOpen check = true := by simpa using hclosed
        refine ⟨_, hlooping.ended_of_change hwaiting (.inl hopen) (some true), fun more => ?_⟩
        rw [Nat.add_right_comm]
        simp only [loop, if_pos hwaiting, if_neg hclosed]
      by_cases hstatus : polls.status check = .notConnected
      swap
      · refine ⟨_, hlooping.ended_of_change hwaiting (.inr hstatus) (some false), fun more => ?_⟩
        rw [Nat.add_right_comm]
        simp only [loop, if_pos hwaiting, if_pos hclosed, if_neg hstatus]
      obtain ⟨hnext, hless⟩ := hlooping.iterate hwaiting hclosed hstatus rfl
      obtain ⟨wait, hended, hloop⟩ := ih hnext (by omega)
      refine ⟨wait, hended, fun more => ?_⟩
      rw [Nat.add_right_comm]
      simp only [loop, if_pos hwaiting, if_pos hclosed, if_pos hstatus, if_neg hlooping.finite]
      exact hloop more

/-- The wait ends, sleeps no longer than it was asked to, and its result and the notification
that follows say whether the link was open when it was last checked. -/
structure Reports (polls : Polls) (waitTime : UInt32) (wait : Wait) : Prop where
  no_underflow : ∀ slice ∈ wait.slices, slice.sleepSlot ≤ slice.waiting
  slept_le : slept wait.slices ≤ waitTime.toNat
  none_iff : wait.result = .none ↔ wait.lastCheck = some true
  timedout : (∀ check, polls.isOpen check = false) → wait.result = .timedout
  notified : ⟨false, .timedout⟩ ∈ dispatch wait.result ↔ wait.lastCheck ≠ some true

/-- `WaitForLinkReady` terminates and reports faithfully. -/
def ReportsExactly (polls : Polls) (waitTime : UInt32) : Prop :=
  ∃ wait, (∃ enough, ∀ fuel, enough ≤ fuel → polls.waitForLinkReady waitTime fuel = some wait) ∧
    Reports polls waitTime wait

/-- Every finite wait terminates. -/
theorem waitForLinkReady_terminates (polls : Polls) (hfinite : waitTime ≠ infinite) :
    ∃ wait, Ended polls waitTime wait ∧
      ∀ fuel, waitTime.toNat + 1 ≤ fuel → polls.waitForLinkReady waitTime fuel = some wait := by
  obtain ⟨wait, hended, hloop⟩ :=
    (looping_start hfinite : Looping polls waitTime waitTime 0 none []).terminates
      waitTime.toNat le_rfl
  refine ⟨wait, hended, fun fuel hfuel => ?_⟩
  obtain ⟨more, rfl⟩ := Nat.exists_eq_add_of_le hfuel
  exact hloop more

/-- **The connect timeout.**  A finite wait reports faithfully if and only if some poll made
before the wait time is used up finds the link open or `_status` changed.  A wait that times
out is reported as a success, and nobody is notified. -/
theorem reportsExactly_iff (hfinite : waitTime ≠ infinite) :
    polls.ReportsExactly waitTime ↔ polls.FindsChange waitTime := by
  obtain ⟨wait, hended, hterminates⟩ := waitForLinkReady_terminates polls hfinite
  constructor
  · rintro ⟨other, ⟨enough, hother⟩, hreports⟩
    obtain rfl : wait = other := by
      have hfirst := hterminates (max (waitTime.toNat + 1) enough) (le_max_left _ _)
      rw [hother _ (le_max_right _ _)] at hfirst
      exact (Option.some.inj hfirst).symm
    rcases hended.verdict with ⟨_, hlast, hresult⟩ | ⟨hfinds, _⟩
    · exact absurd (hreports.none_iff.mp hresult) hlast
    · exact hfinds
  · intro hfinds
    rcases hended.verdict with ⟨hmissed, _⟩ | ⟨_, final, hlast, hresult⟩
    · exact absurd hfinds hmissed
    have hnone : wait.result = .none ↔ wait.lastCheck = some true := by
      rw [hresult, hlast]
      cases polls.isOpen final <;> simp
    refine ⟨wait, ⟨_, hterminates⟩, hended.no_underflow, hended.slept_le, hnone, ?_, ?_⟩
    · intro hclosed
      simp [hresult, hclosed final]
    · rw [mem_dispatch, ne_eq, hnone]
      simp

/-- A link that opens during the second slice. -/
def opensLate : Polls where
  isOpen check := decide (2 ≤ check)
  status check := if 2 ≤ check then .none else .notConnected

theorem reportsExactly_iff_opensLate :
    opensLate.ReportsExactly 250 ∧ ¬ opensLate.ReportsExactly 200 := by
  constructor
  · exact (reportsExactly_iff (by decide)).mpr ⟨2, by decide, .inl rfl⟩
  · rw [reportsExactly_iff (by decide)]
    rintro ⟨check, htime, hchange⟩
    have hlimit : (200 : UInt32).toNat = 200 := rfl
    have hearly : ¬ 2 ≤ check := by omega
    simp [opensLate, hearly] at hchange

/-- A link that stays closed for the whole second it is waited for: the wait reports success
and the listener is not told. -/
theorem timeout_reported_as_success :
    ¬ Polls.ReportsExactly ⟨fun _ => false, fun _ => .notConnected⟩ 1000 := by
  rintro ⟨wait, ⟨enough, hwait⟩, hreports⟩
  have hresult := hreports.timedout fun _ => rfl
  obtain ⟨other, hended, hterminates⟩ :=
    waitForLinkReady_terminates ⟨fun _ => false, fun _ => .notConnected⟩
      (show (1000 : UInt32) ≠ infinite by decide)
  have hsame := hterminates (max ((1000 : UInt32).toNat + 1) enough) (le_max_left _ _)
  rw [hwait _ (le_max_right _ _)] at hsame
  obtain rfl := Option.some.inj hsame
  rcases hended.verdict with ⟨_, _, hnone⟩ | ⟨⟨check, _, hchange⟩, _⟩
  · rw [hnone] at hresult
    exact Error.timedout_ne_none hresult.symm
  · simp at hchange

end Polls

end FireboltTransport.Transport
