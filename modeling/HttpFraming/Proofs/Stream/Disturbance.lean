import HttpFraming.Proofs.Stream.Flow

/-!
# Failures between reads

A transport may fail at a read and go on delivering at the next, as if nothing had happened.
`Delivery.Disturbed` relates a script to one with such failures put in, at any places where a read
begins. `Source.Disturbed.supply` says what a reader sees of it: seeing to it that the buffer holds
something comes to the same in both, or fails in the one and has not yet been tried in the other. So
a failure is something that comes in between, and takes nothing away.

## Where a failure can be put in

Between any two deliveries, and also inside one, if it is longer than what a read takes. For that
the delivery is cut where a read of it ends, which is after `max` octets (`Disturbed.cut`). At other
places a cut would be seen even without a failure, as a read that brings less than it could.
Interruptions are not failures in this sense. They never reach a reader, so the second
script may leave them out (`Disturbed.skip`).

## Steps

The relation is followed through one read of the transport (`Reception.disturbed_ofScript`), through
a filling of the buffer (`Source.Disturbed.fill`), and through what readers do, which is to see to
it that something is buffered. In each there are the same two cases: a failure out of turn, after
which the first of the two is where it was, or the same answer in both.

The end of the module collects what a failed read leaves of any source, disturbed or not: the buffer
was empty, nothing has come, and the failure is used up.
-/

namespace HttpFraming

/-! ### Scripts -/

/-- The second script is the first with failures put in between reads of at most `max` octets. A
delivery that takes more than one read may be cut where a read of it ends. Whether a read is
interrupted does not matter, as it is repeated at once. -/
inductive Delivery.Disturbed (max : Nat) : List Delivery → List Delivery → Prop
  | nil : Disturbed max [] []
  | keep (d : Delivery) {script script' : List Delivery} (rest : Disturbed max script script') :
    Disturbed max (d :: script) (d :: script')
  | insert (cause : Failure) {script script' : List Delivery} (fails : cause.kind ≠ .interrupted)
    (rest : Disturbed max script script') : Disturbed max script (.failure cause :: script')
  | cut (data : Octets) {script script' : List Delivery} (long : max < data.length)
    (rest : Disturbed max (.octets (data.drop max) :: script) script') :
    Disturbed max (.octets data :: script) (.octets (data.take max) :: script')
  | skip (cause : Failure) {script script' : List Delivery} (again : cause.kind = .interrupted)
    (rest : Disturbed max script script') : Disturbed max (.failure cause :: script) script'

/-- Failures carry no octets, so both scripts deliver the same. -/
theorem Delivery.Disturbed.octetsOf_eq {max : Nat} {script script' : List Delivery}
    (h : Disturbed max script script') : octetsOf script' = octetsOf script := by
  induction h with
  | nil => rfl
  | keep d _ ih =>
    cases d with
    | octets data => exact congrArg (data ++ ·) ih
    | failure cause => exact ih
  | insert cause _ _ ih => exact ih
  | @cut data script script' _ _ ih =>
    show data.take max ++ octetsOf script' = data ++ octetsOf script
    rw [ih]
    show data.take max ++ (data.drop max ++ octetsOf script) = data ++ octetsOf script
    rw [← List.append_assoc, List.take_append_drop]
  | skip cause _ _ ih => exact ih

namespace Reception

open Delivery (Disturbed octetsOf weight)

variable {max : Nat} {script script' : List Delivery} {cause : Failure}

/-- **One read of a disturbed transport** fails out of turn, or is the read of the other. -/
theorem disturbed_ofScript (h : Disturbed max script script') :
    (∃ cause, (ofScript max script').result = .error cause ∧
      Disturbed max script (ofScript max script').script) ∨
    ((ofScript max script').result = (ofScript max script).result ∧
      Disturbed max (ofScript max script).script (ofScript max script').script) := by
  induction h with
  | nil => exact .inr ⟨rfl, .nil⟩
  | @keep d script script' h ih =>
    cases d with
    | octets data =>
      refine .inr ⟨rfl, ?_⟩
      simp only [ofScript]
      by_cases hle : data.length ≤ max
      · rw [if_pos hle, if_pos hle]
        exact h
      · rw [if_neg hle, if_neg hle]
        exact .keep _ h
    | failure cause =>
      by_cases hkind : cause.kind = .interrupted
      · simp only [ofScript, hkind, if_true]
        rcases ih with ⟨cause', hresult, hscript⟩ | hsame
        · exact .inl ⟨cause', hresult, .skip cause hkind hscript⟩
        · exact .inr hsame
      · simp only [ofScript, hkind, if_false]
        exact .inr ⟨trivial, h⟩
  -- A failure that was put in is met here, and the first script is where it was.
  | insert cause hkind h _ =>
    simp only [ofScript, hkind, if_false]
    exact .inl ⟨cause, rfl, h⟩
  -- Cut or not, a read takes the first octets of the delivery, and leaves the same of it.
  | @cut data script script' hlong h _ =>
    have hle : (data.take max).length ≤ max := List.length_take_le max data
    refine .inr ⟨?_, ?_⟩
    · show Except.ok ((data.take max).take max) = Except.ok (data.take max)
      rw [List.take_take, Nat.min_self]
    · simp only [ofScript, if_pos hle, if_neg (Nat.not_le.2 hlong)]
      exact h
  | @skip cause script script' hkind h ih =>
    simp only [ofScript, hkind, if_true]
    rcases ih with ⟨cause', hresult, hscript⟩ | hsame
    · exact .inl ⟨cause', hresult, .skip cause hkind hscript⟩
    · exact .inr hsame

/-- What a read brings and what it leaves is all there was. -/
theorem octetsOf_ofScript (max : Nat) (script : List Delivery) :
    (ofScript max script).octets ++ octetsOf (ofScript max script).script = octetsOf script := by
  induction script with
  | nil => rfl
  | cons d rest ih =>
    cases d with
    | octets data =>
      show data.take max ++ octetsOf (if data.length ≤ max then rest
        else .octets (data.drop max) :: rest) = data ++ octetsOf rest
      split
      · rename_i hle
        rw [List.take_of_length_le hle]
      · show data.take max ++ (data.drop max ++ octetsOf rest) = data ++ octetsOf rest
        rw [← List.append_assoc, List.take_append_drop]
    | failure cause =>
      by_cases hkind : cause.kind = .interrupted
      · simp only [ofScript, hkind, if_true]
        exact ih
      · simp only [ofScript, hkind, if_false]
        rfl

/-- A failure is used up by the read that fails. -/
theorem weight_ofScript_lt_of_error (h : (ofScript max script).result = .error cause) :
    weight (ofScript max script).script < weight script := by
  induction script with
  | nil => cases h
  | cons d rest ih =>
    cases d with
    | octets data => cases h
    | failure cause' =>
      by_cases hkind : cause'.kind = .interrupted
      · simp only [ofScript, hkind, if_true] at h ⊢
        have hlt := ih h
        simp only [weight]
        omega
      · simp only [ofScript, hkind, if_false, weight]
        omega

end Reception

/-! ### Sources -/

namespace Source

variable {s s' t : Source} {max : Nat} {cause : Failure} {supplied : Supply}

/-- The second source is the first with failures put in between reads of at most `max` octets. -/
structure Disturbed (max : Nat) (s s' : Source) : Prop where
  buffer : s'.buffer = s.buffer
  script : Delivery.Disturbed (Nat.max max 1) s.script s'.script

/-- Both sources have the same octets to deliver. -/
theorem Disturbed.unread_eq (h : Disturbed max s s') : s'.unread = s.unread :=
  h.script.octetsOf_eq

/-- To consume from both keeps them related. -/
theorem Disturbed.consume (h : Disturbed max s s') (n : Nat) :
    Disturbed max (s.consume n) (s'.consume n) where
  buffer := congrArg (List.drop n) h.buffer
  script := h.script

/-- To fill the buffer of a disturbed source fails out of turn, or is to fill that of the other. -/
theorem Disturbed.fill {result : Except Failure Nat} (h : Disturbed max s s')
    (hfill : s.fill max = (result, t)) :
    (∃ cause t', s'.fill max = (.error cause, t') ∧ Disturbed max s t') ∨
      ∃ t', s'.fill max = (result, t') ∧ Disturbed max t t' := by
  rw [fill_eq] at hfill
  obtain ⟨rfl, rfl⟩ := Prod.mk.inj hfill
  have hfill' := fill_eq s' max
  rcases Reception.disturbed_ofScript h.script with ⟨cause, hresult, hscript⟩ | ⟨hsame, hscript⟩
  · have hoctets : (Reception.ofScript (Nat.max max 1) s'.script).octets = [] := by
      rw [Reception.octets, hresult]
    rw [hresult, hoctets, List.append_nil] at hfill'
    exact .inl ⟨cause, _, hfill', ⟨h.buffer, hscript⟩⟩
  · have hoctets : (Reception.ofScript (Nat.max max 1) s'.script).octets =
        (Reception.ofScript (Nat.max max 1) s.script).octets := by
      rw [Reception.octets, Reception.octets, hsame]
    rw [hsame, hoctets] at hfill'
    exact .inr ⟨_, hfill', ⟨congrArg (· ++ _) h.buffer, hscript⟩⟩

/-- **What a reader sees of a disturbed source**: a failure out of turn, or what is seen of the
other. -/
theorem Disturbed.supply (h : Disturbed max s s') (hsupply : s.supply max = (supplied, t)) :
    (∃ cause t', s'.supply max = (.failed cause, t') ∧ Disturbed max s t') ∨
      ∃ t', s'.supply max = (supplied, t') ∧ Disturbed max t t' := by
  by_cases hbuffer : s.buffer = []
  · have hbuffer' : s'.buffer = [] := h.buffer.trans hbuffer
    rw [supply_of_nil hbuffer] at hsupply
    obtain ⟨rfl, rfl⟩ := Prod.mk.inj hsupply
    rw [supply_of_nil hbuffer']
    rcases h.fill (Prod.eta _).symm with ⟨cause, t', hfill, ht⟩ | ⟨t', hfill, ht⟩
    · rw [hfill]
      exact .inl ⟨cause, t', rfl, ht⟩
    · rw [hfill]
      exact .inr ⟨t', rfl, ht⟩
  · have hbuffer' : s'.buffer ≠ [] := by rwa [h.buffer]
    rw [supply_of_ne_nil hbuffer] at hsupply
    obtain ⟨rfl, rfl⟩ := Prod.mk.inj hsupply
    exact .inr ⟨s', supply_of_ne_nil hbuffer', h⟩

/-! ### What a failure leaves -/

/-- To fill the buffer moves octets into it, from the front of what the transport delivers. -/
theorem received_fill (s : Source) (max : Nat) :
    ∃ received, (s.fill max).2.buffer = s.buffer ++ received ∧
      s.unread = received ++ (s.fill max).2.unread := by
  rw [fill_eq]
  exact ⟨_, rfl, (Reception.octetsOf_ofScript _ _).symm⟩

/-- Seeing to it that the buffer holds something moves octets into the buffer, and no others. -/
theorem received_supply (h : s.supply max = (supplied, s')) :
    ∃ received, s'.buffer = s.buffer ++ received ∧ s.unread = received ++ s'.unread := by
  by_cases hbuffer : s.buffer = []
  · rw [supply_of_nil hbuffer] at h
    obtain ⟨-, rfl⟩ := Prod.mk.inj h
    exact s.received_fill max
  · rw [supply_of_ne_nil hbuffer] at h
    obtain ⟨-, rfl⟩ := Prod.mk.inj h
    exact ⟨[], (List.append_nil _).symm, rfl⟩

/-- **Where a supply fails**: the buffer was empty, and the transport was asked and failed. -/
theorem of_supply_failed (h : s.supply max = (.failed cause, s')) : s.buffer = [] ∧
    (Reception.ofScript (Nat.max max 1) s.script).result = .error cause ∧
      s' = (s.fill max).2 := by
  by_cases hbuffer : s.buffer = []
  · rw [supply_of_nil hbuffer] at h
    obtain ⟨hfailed, rfl⟩ := Prod.mk.inj h
    refine ⟨hbuffer, ?_, rfl⟩
    rw [fill_eq] at hfailed
    cases hresult : (Reception.ofScript (Nat.max max 1) s.script).result with
    | ok data =>
      rw [hresult] at hfailed
      rcases data with - | ⟨b, data⟩ <;> cases hfailed
    | error cause =>
      rw [hresult] at hfailed
      cases hfailed
      rfl
  · rw [supply_of_ne_nil hbuffer] at h
    cases h

/-- A transport is read only when the buffer is empty, and a read that fails brings nothing. -/
theorem of_failed (h : s.supply max = (.failed cause, s')) :
    s.buffer = [] ∧ s'.buffer = [] ∧ s'.unread = s.unread := by
  obtain ⟨hbuffer, hresult, rfl⟩ := of_supply_failed h
  have hoctets : (Reception.ofScript (Nat.max max 1) s.script).octets = [] := by
    rw [Reception.octets, hresult]
  have hkept : (s.fill max).2.buffer = [] := by
    rw [fill_eq, hoctets, List.append_nil]
    exact hbuffer
  obtain ⟨received, hreceived, hunread⟩ := s.received_fill max
  rw [hbuffer, hkept, List.nil_append] at hreceived
  rw [← hreceived, List.nil_append] at hunread
  exact ⟨hbuffer, hkept, hunread.symm⟩

/-- A failure is used up by the read that fails. -/
theorem total_lt_of_failed (h : s.supply max = (.failed cause, s')) : s'.total < s.total := by
  obtain ⟨hbuffer, hresult, rfl⟩ := of_supply_failed h
  have hkept := (of_failed h).2.1
  have hlt : Delivery.weight (Reception.ofScript (Nat.max max 1) s.script).script <
      Delivery.weight s.script := Reception.weight_ofScript_lt_of_error hresult
  rw [total, total, hkept, hbuffer, fill_eq]
  exact Nat.add_lt_add_right hlt _

end Source

end HttpFraming
