import HttpFraming.Proofs.Url.WellFormed

/-!
# Putting a URL together again

A URL that has been read from a text is written as that text, but for its port: a port has zeros in
front no longer, and a colon that no port followed is gone. Everything else stands where it stood,
even parts that are there and empty, and the brackets that reading takes from a host
(`Url.toText_of_parse?`). So the two texts are the same exactly when the port was written as a
number is, or was not there.

To say this without a second reader, a text is given as three pieces: what stands before the port,
some spelling of the port, and what stands behind it. The first and the last are functions of the
URL (`beforePort`, `afterPort`), and only the middle one is a matter of choice (`WritesPort`). In
the module on well-formed URLs the same is told of lists of characters, with the port inside, where
a reader meets it. Here the pieces are texts, as they are written, and the first thing to show is
that both come to the same (`charsWith_of_host`, `charsWith_of_no_host`).

That texts with equal pieces around the port are equal exactly if the ports are is due to the pieces
being the same on both sides: nothing has to be searched for.
-/

namespace HttpFraming.Url

/-! ### What stands around a port -/

/-- What is written of a URL in front of its port: everything up to the host. -/
def beforePort (u : Url) : String :=
  (u.scheme.elim "" fun s ↦ s ++ ":") ++
    u.host.elim "" fun h ↦ "//" ++ (u.userinfo.elim "" fun i ↦ i ++ "@") ++ hostText h

/-- What is written of a URL behind its port: everything from the path on. -/
def afterPort (u : Url) : String :=
  u.path ++ (u.query.elim "" fun q ↦ "?" ++ q) ++ u.fragment.elim "" fun f ↦ "#" ++ f

/-- A port as it is written: behind a colon, in as few digits as it needs. -/
def portText (port : Option Nat) : String :=
  port.elim "" fun n ↦ ":" ++ Decimal.print n

/-- What a port may be read from: there may be nothing behind its colon, and zeros in front of its
digits. -/
inductive WritesPort : Option Nat → String → Prop
  | absent : WritesPort none ""
  | empty : WritesPort none ":"
  | given (zeros n : Nat) (lt : n < portBound) :
    WritesPort (some n) (":" ++ String.ofList (List.replicate zeros '0') ++ Decimal.print n)

variable {u : Url} {port : List Char}

/-- What a port is read from is a colon, zeros and the number. -/
theorem SpellsPort.writesPort {n : Option Nat} (h : SpellsPort n port) :
    WritesPort n (String.ofList port) := by
  cases h with
  | absent => exact .absent
  | empty => exact .empty
  | @given n digits hdigits =>
    obtain ⟨hne, hclass, rfl, hlt⟩ := Decimal.readBelow?_eq_some_iff.1 hdigits
    obtain ⟨zeros, hzeros⟩ := Decimal.exists_zeros_append_digits hne hclass
    have htext : String.ofList (':' :: digits) = ":" ++
        String.ofList (List.replicate zeros '0') ++ Decimal.print (Decimal.value digits) := by
      rw [← String.toList_inj]
      simp [Decimal.print, ← hzeros]
    rw [htext]
    exact .given zeros _ hlt

theorem toList_beforePort (u : Url) : u.beforePort.toList = schemeChars u.scheme ++
    u.host.elim [] fun h ↦ '/' :: '/' :: (userinfoChars u.userinfo ++ hostChars h) := by
  cases hhost : u.host <;> cases huserinfo : u.userinfo <;>
    simp [beforePort, hhost, huserinfo, toList_elim, schemeChars, userinfoChars, toList_hostText]

theorem toList_afterPort (u : Url) : u.afterPort.toList = u.path.toList ++ u.tailChars := by
  simp [afterPort, tailChars, markedChars, toList_elim]

/-- Where there is a host, its port stands behind it. -/
theorem charsWith_of_host (hhost : u.host ≠ none) (port : List Char) :
    u.charsWith port = u.beforePort.toList ++ (port ++ u.afterPort.toList) := by
  obtain ⟨host, hsome⟩ := Option.ne_none_iff_exists'.1 hhost
  rw [charsWith, authorityChars, toList_beforePort, toList_afterPort, hsome]
  simp

/-- Where there is none, nothing stands there. -/
theorem charsWith_of_no_host (hhost : u.host = none) (port : List Char) :
    u.charsWith port = u.beforePort.toList ++ u.afterPort.toList := by
  rw [charsWith, authorityChars, toList_beforePort, toList_afterPort, hhost]
  simp

theorem toList_portText (port : Option Nat) : (portText port).toList = portChars port := by
  cases port <;> simp [portText, portChars, Decimal.print]

/-! ### Both ways -/

/-- A URL is written with its port between what stands around it. -/
theorem WellFormed.toText_eq (h : u.WellFormed) :
    u.toText = u.beforePort ++ portText u.port ++ u.afterPort := by
  rw [← String.toList_inj, toList_toText h.authority, String.toList_append, String.toList_append,
    toList_portText, List.append_assoc]
  by_cases hhost : u.host = none
  · have hport : u.port = none := by
      by_contra hsome
      exact h.authority (.inr hsome) hhost
    rw [charsWith_of_no_host hhost, hport]
    rfl
  · exact charsWith_of_host hhost _

/-- The text from which a URL is read has something that can be read as its port in that place. -/
theorem exists_writesPort_of_parse? {s : String} (h : parse? s = some u) :
    ∃ port, WritesPort u.port port ∧ (port ≠ "" → u.host ≠ none) ∧
      s = u.beforePort ++ port ++ u.afterPort := by
  obtain ⟨hu, port, hport, hs⟩ := ofChars?_eq_some_iff.1 h
  by_cases hhost : u.host = none
  · have hnone : u.port = none := by
      by_contra hsome
      exact hu.authority (.inr hsome) hhost
    refine ⟨"", hnone ▸ .absent, fun hne ↦ absurd rfl hne, ?_⟩
    rw [← String.toList_inj, hs, charsWith_of_no_host hhost]
    simp
  · refine ⟨String.ofList port, hport.writesPort, fun _ ↦ hhost, ?_⟩
    rw [← String.toList_inj, hs, charsWith_of_host hhost]
    simp

/-- **A URL is written as the text from which it was read, but for its port**, which is written in
as few digits as it needs, and not at all if there was none behind its colon. So the texts are the
same exactly when the port was written like that. -/
theorem toText_of_parse? {s : String} {u : Url} (h : parse? s = some u) :
    ∃ port, WritesPort u.port port ∧ (port ≠ "" → u.host ≠ none) ∧
      s = u.beforePort ++ port ++ u.afterPort ∧
      u.toText = u.beforePort ++ portText u.port ++ u.afterPort ∧
      (u.toText = s ↔ port = portText u.port) := by
  obtain ⟨port, hport, hhost, rfl⟩ := exists_writesPort_of_parse? h
  have htext := (wellFormed_of_parse? h).toText_eq
  refine ⟨port, hport, hhost, rfl, htext, ?_⟩
  rw [htext, String.append_left_inj, String.append_right_inj, eq_comm]

/-- Parts that are empty, brackets, and zeros in front of a port. -/
theorem toText_of_parse?_zeros :
    parse? "ftp://@[::1]:0080?#" =
        some ⟨some "ftp", some "", some "::1", some 80, "", some "", some ""⟩ ∧
      ∃ port, WritesPort (some 80) port ∧ "ftp://@[::1]:0080?#" = "ftp://@[::1]" ++ port ++ "?#" ∧
        (⟨some "ftp", some "", some "::1", some 80, "", some "", some ""⟩ : Url).toText =
          "ftp://@[::1]:80?#" := by
  have hread : parse? "ftp://@[::1]:0080?#" =
      some ⟨some "ftp", some "", some "::1", some 80, "", some "", some ""⟩ := by decide +kernel
  obtain ⟨port, hport, -, hs, htext, -⟩ := toText_of_parse? hread
  exact ⟨hread, port, hport, hs, htext.trans (by decide +kernel)⟩

end HttpFraming.Url
