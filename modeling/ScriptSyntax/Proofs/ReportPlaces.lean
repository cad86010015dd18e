import Mathlib.Data.List.Basic
import ScriptSyntax.Proofs.Comparison.Solo

/-!
# Rows and columns of reports

A report is placed by the offset at which its span starts: its row counts the line breaks before it
in the encoded text, its column the bytes behind the last of them.  A place further on is a greater
place, row first, so sorting reports by offset sorts them by row and column.

All this holds up to the greatest offset but one.  A report at the greatest offset of all, which only
an entry that starts there can give, has no column in a machine word.
-/

namespace ScriptSyntax

/-! ## Lines of the encoded text -/

namespace Source

/-- The text as it is encoded. -/
def bytes (source : Source) : List UInt8 :=
  source.flatMap String.utf8EncodeChar

@[simp] theorem length_bytes (source : Source) : source.bytes.length = source.size := by
  induction source with
  | nil => rfl
  | cons c rest ih =>
      change (String.utf8EncodeChar c ++ bytes rest).length = _
      rw [List.length_append, String.length_utf8EncodeChar, ih, size_cons]

/-- Where the line breaks before an offset stand. -/
def breaksBefore (source : Source) (offset : Nat) : List Nat :=
  (source.bytes.take offset).idxsOf 10

/-- Just after the last line break before an offset. -/
def lineStart (source : Source) (offset : Nat) : Nat :=
  (source.breaksBefore offset).getLast?.elim 0 (· + 1)

/-- Every byte of a character that takes several is at least 128. -/
theorem large_of_mem_utf8EncodeChar {c : Char} (h : c.utf8Size ≠ 1) {byte : UInt8}
    (hbyte : byte ∈ String.utf8EncodeChar c) : 128 ≤ byte.toNat := by
  have hlarge : ¬c.val.toNat ≤ 127 := fun hsmall => h (Char.utf8Size_eq_one_iff.mpr hsmall)
  unfold String.utf8EncodeChar at hbyte
  dsimp only at hbyte
  rw [if_neg hlarge] at hbyte
  split_ifs at hbyte <;> simp only [List.mem_cons, List.not_mem_nil, or_false] at hbyte <;>
    rcases hbyte with rfl | rfl | rfl | rfl
  all_goals
    rw [UInt8.toNat_ofNat']
    omega

theorem toNat_toUInt8 {c : Char} (h : c.utf8Size = 1) : c.toUInt8.toNat = c.toNat := by
  have hsmall : c.val.toNat ≤ 127 := Char.utf8Size_eq_one_iff.mp h
  change c.val.toNat % 2 ^ 8 = c.val.toNat
  omega

/-- A byte that encodes a character alone stands in no other character's encoding. -/
theorem mem_utf8EncodeChar_iff {c mark : Char} (hmark : mark.utf8Size = 1) :
    mark.toUInt8 ∈ String.utf8EncodeChar c ↔ c = mark := by
  constructor
  · intro hmem
    have hbyte := toNat_toUInt8 hmark
    have hsmall : mark.toNat ≤ 127 := Char.utf8Size_eq_one_iff.mp hmark
    by_cases hc : c.utf8Size = 1
    · rw [String.utf8EncodeChar_eq_singleton hc, List.mem_singleton] at hmem
      rw [← Char.toNat_inj, ← toNat_toUInt8 hc, ← hbyte, hmem]
      rfl
    · have hlarge := large_of_mem_utf8EncodeChar hc hmem
      omega
  · rintro rfl
    rw [String.utf8EncodeChar_eq_singleton hmark]
    exact List.mem_singleton_self _

theorem mem_bytes_iff {source : Source} {mark : Char} (hmark : mark.utf8Size = 1) :
    mark.toUInt8 ∈ source.bytes ↔ mark ∈ source := by
  rw [bytes, List.mem_flatMap]
  constructor
  · rintro ⟨c, hmem, hbyte⟩
    rwa [← (mem_utf8EncodeChar_iff hmark).mp hbyte]
  · intro hmem
    exact ⟨mark, hmem, (mem_utf8EncodeChar_iff hmark).mpr rfl⟩

theorem idxsOf_utf8EncodeChar (c : Char) (offset : Nat) :
    (String.utf8EncodeChar c).idxsOf 10 offset = if c = '\n' then [offset] else [] := by
  have hmem : (10 : UInt8) ∈ String.utf8EncodeChar c ↔ c = '\n' :=
    mem_utf8EncodeChar_iff (show '\n'.utf8Size = 1 from rfl)
  by_cases hbreak : c = '\n'
  · subst hbreak
    rfl
  · rw [if_neg hbreak, List.idxsOf_eq_nil_iff]
    intro byte hbyte
    rw [beq_eq_false_iff_ne]
    rintro rfl
    exact hbreak (hmem.mp hbyte)

theorem startsAfter_eq (source : Source) (offset : Nat) :
    LineIndex.startsAfter offset source = (source.bytes.idxsOf 10 offset).map (· + 1) := by
  induction source generalizing offset with
  | nil => rfl
  | cons c rest ih =>
      have hbytes : bytes (c :: rest) = String.utf8EncodeChar c ++ bytes rest := rfl
      rw [hbytes, List.idxsOf_append, List.map_append, String.length_utf8EncodeChar, ← ih,
        idxsOf_utf8EncodeChar, LineIndex.startsAfter]
      split
      · rename_i hbreak
        rw [hbreak]
        rfl
      · rfl

theorem idxsOf_take (bytes : List UInt8) (offset : Nat) :
    (bytes.take offset).idxsOf 10 = (bytes.idxsOf 10).filter (· < offset) := by
  have hsplit : bytes.idxsOf 10 =
      (bytes.take offset).idxsOf 10 ++
        (bytes.drop offset).idxsOf 10 (bytes.take offset).length := by
    rw [← Nat.zero_add (bytes.take offset).length, ← List.idxsOf_append, List.take_append_drop]
  have hbefore : ((bytes.take offset).idxsOf 10).filter (· < offset) =
      (bytes.take offset).idxsOf 10 := by
    rw [List.filter_eq_self]
    intro index hindex
    have hlt := List.lt_add_of_mem_idxsOf index hindex
    have hlength := List.length_take_le offset bytes
    exact decide_eq_true (by omega)
  have hbehind : ((bytes.drop offset).idxsOf 10 (bytes.take offset).length).filter (· < offset) =
      [] := by
    rw [List.filter_eq_nil_iff]
    intro index hindex
    have hle := List.ge_of_mem_idxsOf index hindex
    have hthere : offset < bytes.length := by
      by_contra hshort
      rw [List.drop_eq_nil_of_le (by omega)] at hindex
      exact List.not_mem_nil hindex
    rw [List.length_take_of_le (Nat.le_of_lt hthere)] at hle
    simpa using hle
  rw [hsplit, List.filter_append, hbefore, hbehind, List.append_nil]

theorem lineStarts_before (source : Source) (offset : Nat) :
    (LineIndex.ofSource source).lineStarts.filter (· ≤ offset) =
      (source.breaksBefore offset).map (· + 1) := by
  unfold LineIndex.ofSource breaksBefore
  rw [startsAfter_eq, List.filter_map, idxsOf_take]
  rfl

theorem row_eq (source : Source) (offset : Nat) :
    (LineIndex.ofSource source).row offset = 1 + (source.breaksBefore offset).length := by
  unfold LineIndex.row
  rw [List.countP_eq_length_filter, lineStarts_before, List.length_map, Nat.add_comm]

theorem lineStart_eq (source : Source) (offset : Nat) :
    (LineIndex.ofSource source).lineStart offset = source.lineStart offset := by
  unfold LineIndex.lineStart lineStart
  rw [lineStarts_before, List.getLast?_map]
  cases (source.breaksBefore offset).getLast? <;> rfl

theorem exactColumn_eq (source : Source) (offset : Nat) :
    (LineIndex.ofSource source).exactColumn offset = offset - source.lineStart offset + 1 := by
  unfold LineIndex.exactColumn
  rw [lineStart_eq]

/-- Where a line starts with the text, behind the text, the text is one line. -/
theorem not_mem_of_lineStart {source : Source} {offset : Nat} (h : source.lineStart offset = 0)
    (hsize : source.size ≤ offset) : '\n' ∉ source := by
  have hnone : source.breaksBefore offset = [] := by
    unfold lineStart at h
    cases hlast : (source.breaksBefore offset).getLast? with
    | none => exact List.getLast?_eq_none_iff.mp hlast
    | some last =>
        rw [hlast] at h
        cases h
  rw [breaksBefore, List.take_of_length_le (by rwa [length_bytes]), List.idxsOf_eq_nil_iff] at hnone
  intro hbreak
  have hmem : (10 : UInt8) ∈ source.bytes := (@mem_bytes_iff _ '\n' rfl).mpr hbreak
  exact absurd (hnone 10 hmem) (by decide)

end Source

namespace LineIndex

variable {lines : LineIndex} {offset further : Nat}

theorem lineStart_le (lines : LineIndex) (offset : Nat) : lines.lineStart offset ≤ offset := by
  unfold lineStart
  cases hlast : (lines.lineStarts.filter (· ≤ offset)).getLast? with
  | none => exact Nat.zero_le _
  | some start =>
      have hmem := List.mem_of_getLast? hlast
      exact of_decide_eq_true (List.mem_filter.mp hmem).2

/-- Only the greatest offset has no column in a machine word, and only in a line that starts where
the text starts. -/
theorem overflows_iff (lines : LineIndex) (h : offset < wordSize) :
    lines.Overflows offset ↔ offset + 1 = wordSize ∧ lines.lineStart offset = 0 := by
  have hle := lines.lineStart_le offset
  unfold Overflows exactColumn
  omega

theorem column_of_lt (lines : LineIndex) (h : offset + 1 < wordSize) :
    lines.column offset = lines.exactColumn offset := by
  refine Nat.mod_eq_of_lt ?_
  unfold exactColumn
  omega

/-- An offset further on is in a later row, or at a later column of the same row. -/
theorem place_lt (lines : LineIndex) (hword : further + 1 < wordSize) (h : offset < further) :
    lines.row offset < lines.row further ∨
      lines.row offset = lines.row further ∧ lines.column offset < lines.column further := by
  have hstarts : (lines.lineStarts.filter (· ≤ offset)).Sublist
      (lines.lineStarts.filter (· ≤ further)) := by
    apply List.monotone_filter_right
    intro start hstart
    have hle : start ≤ offset := of_decide_eq_true hstart
    exact decide_eq_true (by omega)
  unfold row
  rw [List.countP_eq_length_filter, List.countP_eq_length_filter]
  rcases Nat.lt_or_eq_of_le hstarts.length_le with hlt | heq
  · exact .inl (Nat.succ_lt_succ hlt)
  · have hsame : lines.lineStart offset = lines.lineStart further := by
      unfold lineStart
      rw [hstarts.eq_of_length heq]
    refine .inr ⟨by rw [heq], ?_⟩
    have hle := lines.lineStart_le offset
    rw [lines.column_of_lt (by omega), lines.column_of_lt hword]
    unfold exactColumn
    rw [← hsame]
    omega

theorem place_inj (lines : LineIndex) (hword : offset + 1 < wordSize)
    (hword' : further + 1 < wordSize) (hrow : lines.row offset = lines.row further)
    (hcolumn : lines.column offset = lines.column further) : offset = further := by
  rcases Nat.lt_trichotomy offset further with hlt | heq | hlt
  · rcases lines.place_lt hword' hlt with h | h <;> omega
  · exact heq
  · rcases lines.place_lt hword hlt with h | h <;> omega

end LineIndex

/-! ## Sorted reports -/

/-- Which reports come first among those at one place. -/
def Severity.order : Severity → Nat
  | error => 0
  | warning => 1
  | info => 2

namespace Diagnostic

/-- By rows, then by columns, then by severities. -/
def Precedes (first second : Diagnostic) : Prop :=
  first.row < second.row ∨ first.row = second.row ∧
    (first.column < second.column ∨ first.column = second.column ∧
      first.severity.order ≤ second.severity.order)

def isAt (row column : Nat) (severity : Severity) (diagnostic : Diagnostic) : Bool :=
  diagnostic.row = row && diagnostic.column = column && diagnostic.severity = severity

end Diagnostic

namespace Diagnostics

variable {all : Diagnostics} {lines : LineIndex}

/-- Every report is at the row and the column at which its span starts. -/
def Placed (lines : LineIndex) (all : Diagnostics) : Prop :=
  ∀ diagnostic ∈ all.reported, diagnostic.row = lines.row diagnostic.span.start ∧
    diagnostic.column = lines.column diagnostic.span.start

/-- Every report starts at an offset whose column fits in a machine word. -/
def Fits (all : Diagnostics) : Prop :=
  ∀ diagnostic ∈ all.reported, diagnostic.span.start + 1 < wordSize

theorem count_ofSeverity (all : Diagnostics) (severity : Severity) (diagnostic : Diagnostic) :
    (all.ofSeverity severity).count diagnostic =
      if diagnostic.severity = severity then all.reported.count diagnostic else 0 := by
  unfold ofSeverity
  split
  · rename_i hseverity
    exact List.count_filter (decide_eq_true hseverity)
  · rename_i hseverity
    rw [List.count_eq_zero, List.mem_filter]
    exact fun hmem => hseverity (of_decide_eq_true hmem.2)

theorem toList_perm (all : Diagnostics) : all.toList.Perm all.reported := by
  rw [List.perm_iff_count]
  intro diagnostic
  simp only [toList, errors, warnings, infos, List.count_append, count_ofSeverity]
  cases diagnostic.severity <;> simp

theorem ofSeverity_filter (all : Diagnostics) (severity other : Severity) :
    (all.ofSeverity severity).filter (·.severity = other) =
      if severity = other then all.ofSeverity other else [] := by
  unfold ofSeverity
  rw [List.filter_filter]
  split
  · rename_i heq
    simp only [heq, Bool.and_self]
  · rename_i hne
    rw [List.filter_eq_nil_iff]
    intro diagnostic _ hboth
    rw [Bool.and_eq_true, decide_eq_true_eq, decide_eq_true_eq] at hboth
    exact hne (hboth.2.symm.trans hboth.1)

theorem toList_filter_severity (all : Diagnostics) (severity : Severity) :
    all.toList.filter (·.severity = severity) = all.reported.filter (·.severity = severity) := by
  simp only [toList, errors, warnings, infos, List.filter_append, ofSeverity_filter]
  cases severity <;> simp [ofSeverity]

/-- Errors, then warnings, then infos. -/
theorem toList_pairwise (all : Diagnostics) :
    all.toList.Pairwise fun first second => first.severity.order ≤ second.severity.order := by
  have hseverity {severity : Severity} {diagnostic : Diagnostic}
      (hmem : diagnostic ∈ all.ofSeverity severity) : diagnostic.severity = severity :=
    of_decide_eq_true (List.mem_filter.mp hmem).2
  have hsame (severity : Severity) : (all.ofSeverity severity).Pairwise
      fun first second => first.severity.order ≤ second.severity.order := by
    refine List.pairwise_of_forall_mem_list ?_
    intro first hfirst second hsecond
    exact Nat.le_of_eq (by rw [hseverity hfirst, hseverity hsecond])
  have hacross {severity other : Severity} (hle : severity.order ≤ other.order) :
      ∀ first ∈ all.ofSeverity severity, ∀ second ∈ all.ofSeverity other,
        first.severity.order ≤ second.severity.order := by
    intro first hfirst second hsecond
    rwa [hseverity hfirst, hseverity hsecond]
  unfold toList errors warnings infos
  rw [List.pairwise_append, List.pairwise_append]
  refine ⟨⟨hsame .error, hsame .warning, hacross (by decide)⟩, hsame .info, ?_⟩
  intro first hfirst second hsecond
  rcases List.mem_append.mp hfirst with hfirst | hfirst
  · exact hacross (by decide) first hfirst second hsecond
  · exact hacross (by decide) first hfirst second hsecond

/-- Reports that start at one offset keep their order. -/
theorem sorted_filter_start (all : Diagnostics) (start : Nat) :
    all.sorted.filter (·.span.start = start) = all.toList.filter (·.span.start = start) := by
  have hequal : (all.toList.filter (·.span.start = start)).Pairwise
      fun first second => decide (first.span.start ≤ second.span.start) = true := by
    refine List.pairwise_of_forall_mem_list ?_
    intro first hfirst second hsecond
    have hfirst : first.span.start = start := of_decide_eq_true (List.mem_filter.mp hfirst).2
    have hsecond : second.span.start = start := of_decide_eq_true (List.mem_filter.mp hsecond).2
    exact decide_eq_true (by omega)
  have hsublist : (all.toList.filter (·.span.start = start)).Sublist all.sorted :=
    List.sublist_mergeSort (by simpa using fun _ _ _ => Nat.le_trans)
      (by simpa using fun _ _ => Nat.le_total _ _) hequal List.filter_sublist
  have hkept := hsublist.filter (·.span.start = start)
  rw [List.filter_filter] at hkept
  simp only [Bool.and_self] at hkept
  exact (hkept.eq_of_length (all.sorted_perm.filter _).length_eq.symm).symm

theorem sorted_pairwise_start (all : Diagnostics) :
    all.sorted.Pairwise fun first second => first.span.start ≤ second.span.start := by
  have hsorted := @List.pairwise_mergeSort Diagnostic
    (fun first second => decide (first.span.start ≤ second.span.start))
    (by simpa using fun _ _ _ => Nat.le_trans) (by simpa using fun _ _ => Nat.le_total _ _)
    all.toList
  exact hsorted.imp of_decide_eq_true

theorem mem_reported_of_sorted {diagnostic : Diagnostic} (h : diagnostic ∈ all.sorted) :
    diagnostic ∈ all.reported :=
  (all.sorted_perm.trans all.toList_perm).subset h

namespace Placed

/-- Sorted by offset, reports are sorted by row and column. -/
theorem sorted_pairwise (h : all.Placed lines) (hfits : all.Fits) :
    all.sorted.Pairwise Diagnostic.Precedes := by
  rw [List.pairwise_iff_forall_sublist]
  intro first second hpair
  have hstart := List.pairwise_iff_forall_sublist.mp all.sorted_pairwise_start hpair
  have hfirst := mem_reported_of_sorted (hpair.subset List.mem_cons_self)
  have hsecond := mem_reported_of_sorted (hpair.subset (List.mem_cons_of_mem _ List.mem_cons_self))
  obtain ⟨hrow, hcolumn⟩ := h first hfirst
  obtain ⟨hrow', hcolumn'⟩ := h second hsecond
  unfold Diagnostic.Precedes
  rw [hrow, hrow', hcolumn, hcolumn']
  rcases Nat.lt_or_eq_of_le hstart with hlt | heq
  · have hplaces := lines.place_lt (hfits second hsecond) hlt
    exact hplaces.imp_right fun hplace => ⟨hplace.1, .inl hplace.2⟩
  · rw [heq]
    refine .inr ⟨rfl, .inr ⟨rfl, ?_⟩⟩
    have hkept :
        [first, second].Sublist (all.toList.filter (·.span.start = second.span.start)) := by
      rw [← sorted_filter_start]
      simpa [heq] using hpair.filter (·.span.start = second.span.start)
    exact List.pairwise_iff_forall_sublist.mp all.toList_pairwise
      (hkept.trans List.filter_sublist)

theorem isAt_iff (h : all.Placed lines) (hfits : all.Fits) {diagnostic : Diagnostic}
    (hmem : diagnostic ∈ all.reported) {start : Nat} (hword : start + 1 < wordSize)
    (severity : Severity) :
    diagnostic.isAt (lines.row start) (lines.column start) severity =
      (decide (diagnostic.span.start = start) && decide (diagnostic.severity = severity)) := by
  obtain ⟨hrow, hcolumn⟩ := h diagnostic hmem
  unfold Diagnostic.isAt
  rw [hrow, hcolumn]
  by_cases hstart : diagnostic.span.start = start
  · simp [hstart]
  · have hplace : ¬(lines.row diagnostic.span.start = lines.row start ∧
        lines.column diagnostic.span.start = lines.column start) :=
      fun heq => hstart (lines.place_inj (hfits diagnostic hmem) hword heq.1 heq.2)
    simp [hstart, hplace]

/-- At one place and severity reports keep their order. -/
theorem sorted_filter (h : all.Placed lines) (hfits : all.Fits) (row column : Nat)
    (severity : Severity) :
    all.sorted.filter (Diagnostic.isAt row column severity) =
      all.reported.filter (Diagnostic.isAt row column severity) := by
  have hperm := all.sorted_perm.trans all.toList_perm
  by_cases hthere : ∃ start, start + 1 < wordSize ∧ lines.row start = row ∧
      lines.column start = column
  · obtain ⟨start, hword, rfl, rfl⟩ := hthere
    calc all.sorted.filter (Diagnostic.isAt (lines.row start) (lines.column start) severity)
        = (all.sorted.filter (·.span.start = start)).filter (·.severity = severity) := by
          rw [List.filter_filter]
          exact List.filter_congr fun diagnostic hmem => by
            rw [h.isAt_iff hfits (mem_reported_of_sorted hmem) hword, Bool.and_comm]
      _ = (all.toList.filter (·.severity = severity)).filter (·.span.start = start) := by
          rw [sorted_filter_start, List.filter_comm]
      _ = all.reported.filter
            (Diagnostic.isAt (lines.row start) (lines.column start) severity) := by
          rw [toList_filter_severity, List.filter_filter]
          exact List.filter_congr fun diagnostic hmem =>
            (h.isAt_iff hfits hmem hword severity).symm
  · have hnone : all.reported.filter (Diagnostic.isAt row column severity) = [] := by
      rw [List.filter_eq_nil_iff]
      intro diagnostic hmem hat
      obtain ⟨hrow, hcolumn⟩ := h diagnostic hmem
      simp only [Diagnostic.isAt, Bool.and_eq_true, decide_eq_true_eq] at hat
      exact hthere ⟨_, hfits diagnostic hmem, hrow.symm.trans hat.1.1, hcolumn.symm.trans hat.1.2⟩
    rw [hnone, ← List.perm_nil, ← hnone]
    exact hperm.filter _

end Placed

end Diagnostics

/-! ## Runs -/

namespace Grammar

/-- The reports of a session are placed, up to the end of what may be read, and a note only follows
an error. -/
structure Session.Placed (setting : Setting) (session : Session) : Prop where
  places : session.diagnostics.Placed setting.lines
  within : ∀ diagnostic ∈ session.diagnostics.reported,
    diagnostic.span.start ≤ setting.finish.span.start
  noted : session.diagnostics.infos ≠ [] → session.diagnostics.errors ≠ []

namespace Session.Placed

variable {setting : Setting} {session : Session}

theorem of_reported (h : session.Placed setting) {other : Session}
    (hsame : other.diagnostics = session.diagnostics) : other.Placed setting :=
  ⟨hsame ▸ h.places, hsame ▸ h.within, hsame ▸ h.noted⟩

theorem ofSeverity_reports (setting : Setting) (severity other : Severity) (message : Message)
    (session : Session) : ∃ more, (setting.reports severity message session).diagnostics.ofSeverity
      other = session.diagnostics.ofSeverity other ++ more ∧ (severity ≠ other → more = []) := by
  obtain ⟨report, hreported, hseverity, -⟩ := setting.reported_reports severity message session
  unfold Diagnostics.ofSeverity
  rw [hreported, List.filter_append]
  refine ⟨_, rfl, ?_⟩
  intro hne
  simpa [hseverity] using hne

theorem reports (hwhole : setting.Whole) (h : session.Placed setting)
    (hreads : setting.Reads session.ahead) (severity : Severity) (message : Message)
    (hnoted : severity = .info → session.diagnostics.errors ≠ []) :
    (setting.reports severity message session).Placed setting := by
  have hhead : (setting.head session).span.start ≤ setting.finish.span.start :=
    hreads.start_le hwhole (setting.leads_of_suffix List.nil_suffix)
  refine ⟨?_, ?_, ?_⟩
  · intro diagnostic hmem
    rcases List.mem_append.mp hmem with hmem | hmem
    · exact h.places diagnostic hmem
    · rw [List.mem_singleton.mp hmem]
      exact ⟨rfl, rfl⟩
  · intro diagnostic hmem
    rcases List.mem_append.mp hmem with hmem | hmem
    · exact h.within diagnostic hmem
    · rw [List.mem_singleton.mp hmem]
      exact hhead
  unfold Diagnostics.infos Diagnostics.errors
  obtain ⟨notes, hnotes, hnone⟩ := ofSeverity_reports setting severity .info message session
  obtain ⟨errors, herrors, -⟩ := ofSeverity_reports setting severity .error message session
  rw [hnotes, herrors]
  intro hsome
  apply List.append_ne_nil_of_left_ne_nil
  by_cases hseverity : severity = .info
  · exact hnoted hseverity
  · rw [hnone hseverity, List.append_nil] at hsome
    exact h.noted hsome

end Session.Placed

theorem Setting.Blamed.errors_ne_nil {setting : Setting} {session : Session}
    (h : setting.Blamed session) : session.diagnostics.errors ≠ [] := by
  obtain ⟨front, report, hreported, hseverity, -⟩ := h
  exact List.ne_nil_of_mem (List.mem_filter.mpr
    ⟨hreported ▸ List.mem_append_right _ List.mem_cons_self, decide_eq_true hseverity⟩)

/-- The reports of every session of a run are placed. -/
def Solo.placed (setting : Setting) (hended : setting.Ended) (hwhole : setting.Whole) : Solo where
  setting := setting
  ended := hended
  Frame := Unit
  holds _ _ session := session.Placed setting
  rewound _ _ := False
  astray _ _ := False
  inside _ _ := ()
  within _ _ := True
  begins _ _ := True
  within_ahead _ := trivial
  within_suffix _ _ _ := trivial
  begins_ahead _ _ := trivial
  begins_suffix _ _ _ := trivial
  begins_wider _ _ := trivial
  lost _ := False
  lost_reported _ h := h
  loosen := id
  loosest := id
  note _ _ h _ := h.of_reported rfl
  label _ h := h.of_reported rfl
  slot _ h _ := h.of_reported rfl
  shorten _ h _ := h.of_reported rfl
  behind _ h _ _ := h.of_reported rfl
  onward _ h _ := h.of_reported rfl
  opened _ _ h := h.of_reported rfl
  closed _ _ _ _ h := h.of_reported rfl
  rewound_closed _ _ _ _ h := h
  astray_closed _ _ _ _ h := h
  report severity message hseverity hreads h :=
    h.reports hwhole hreads severity message (absurd · hseverity)
  rewind := by
    intro n s tokens construct _ _ htokens _ h hblamed
    have hmoved : (s.at tokens).Placed setting := h.of_reported rfl
    exact .inr (.inl (hmoved.reports hwhole htokens .info _ fun _ => hblamed.errors_ne_nil))
  reach _ _ _ _ h _ := h.of_reported rfl
  rewound_reach _ _ _ _ _ h _ := h
  astray_reach _ _ _ _ _ h _ := h

theorem Solo.placed_resumes (setting : Setting) (hended : setting.Ended) (hwhole : setting.Whole) :
    (Solo.placed setting hended hwhole).Resumes :=
  ⟨fun _ _ h => h.elim⟩

end Grammar

namespace Entry

open Grammar

theorem session_placed (entry : Entry) (options : Options) (source : Source) :
    (entry.session options source).Placed (entry.setting options source) := by
  have hwhole : (entry.setting options source).Whole := Nat.le_max_right _ _
  have hfirst : Session.Placed (entry.setting options source)
      ⟨source.tokensFrom entry.start, {}, .empty .undefined⟩ :=
    ⟨fun _ hmem => absurd hmem List.not_mem_nil, fun _ hmem => absurd hmem List.not_mem_nil,
      fun hne => absurd rfl hne⟩
  have hresumes := Solo.placed_resumes (entry.setting options source) rfl hwhole
  have hafter := (Solo.placed (entry.setting options source) rfl hwhole).entry_holds entry
    options.maxDepth (n := ()) ⟨entry.start, rfl⟩ hfirst
  exact (hafter.resolve_left id).resolve_right id

theorem parse_fits (entry : Entry) (options : Options) {source : Source}
    (hword : max entry.start source.size + 1 < wordSize) :
    (entry.parse options source).diagnostics.Fits := by
  intro diagnostic hmem
  have hle : diagnostic.span.start ≤ max entry.start source.size :=
    (entry.session_placed options source).within diagnostic hmem
  omega

/-- Every report is at the row and the column of the offset at which it starts, and a note only
follows an error.  Sorted, the reports follow rows, columns and severities, and stay in the order of
reporting where those are the same. -/
theorem parse_placed (entry : Entry) (options : Options) (source : Source)
    (hword : max entry.start source.size + 1 < wordSize) :
    let diagnostics := (entry.parse options source).diagnostics
    (∀ diagnostic ∈ diagnostics.reported,
      diagnostic.row = 1 + (source.breaksBefore diagnostic.span.start).length ∧
        diagnostic.column = diagnostic.span.start - source.lineStart diagnostic.span.start + 1) ∧
    (diagnostics.infos ≠ [] → diagnostics.errors ≠ []) ∧
    diagnostics.sorted.Perm diagnostics.reported ∧
    diagnostics.sorted.Pairwise Diagnostic.Precedes ∧
    ∀ row column severity, diagnostics.sorted.filter (Diagnostic.isAt row column severity) =
      diagnostics.reported.filter (Diagnostic.isAt row column severity) := by
  intro diagnostics
  have hsession := entry.session_placed options source
  have hfits := entry.parse_fits options hword
  refine ⟨?_, hsession.noted, diagnostics.sorted_perm.trans diagnostics.toList_perm,
    hsession.places.sorted_pairwise hfits, hsession.places.sorted_filter hfits⟩
  intro diagnostic hmem
  obtain ⟨hrow, hcolumn⟩ := hsession.places diagnostic hmem
  refine ⟨hrow.trans (source.row_eq _), ?_⟩
  calc diagnostic.column
      = (LineIndex.ofSource source).column diagnostic.span.start := hcolumn
    _ = (LineIndex.ofSource source).exactColumn diagnostic.span.start :=
        LineIndex.column_of_lt _ (hfits diagnostic hmem)
    _ = _ := source.exactColumn_eq _

/-- The column of a report does not fit only if the entry starts at the greatest offset of all and
the source is one line. -/
theorem start_of_overflows (entry : Entry) (options : Options) {source : Source}
    (hstart : entry.start < wordSize) (hsize : source.size + 1 < wordSize) :
    ∀ diagnostic ∈ (entry.parse options source).diagnostics.reported,
      (LineIndex.ofSource source).Overflows diagnostic.span.start →
        entry.start + 1 = wordSize ∧ '\n' ∉ source := by
  intro diagnostic hmem hoverflows
  have hle : diagnostic.span.start ≤ max entry.start source.size :=
    (entry.session_placed options source).within diagnostic hmem
  obtain ⟨hlast, hline⟩ := (LineIndex.overflows_iff _ (by omega)).mp hoverflows
  rw [source.lineStart_eq] at hline
  exact ⟨by omega, source.not_mem_of_lineStart hline (by omega)⟩

/-- At the greatest offset the end of the source is reported in column zero. -/
theorem statementBlock_overflows :
    let outcome := (statementBlock (wordSize - 1)).parse {} []
    outcome.diagnostics.errors.map (fun report => (report.span.start, report.row, report.column)) =
        [(wordSize - 1, 1, 0), (wordSize - 1, 1, 0)] ∧
      ∀ report ∈ outcome.diagnostics.errors,
        (LineIndex.ofSource []).Overflows report.span.start := by
  decide +kernel

end Entry

end ScriptSyntax
