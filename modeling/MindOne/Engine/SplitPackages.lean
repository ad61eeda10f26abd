import MindOne.Engine.ShardNames
import MindOne.Lib.PaddedDecimals
import MindOne.Lib.PlacedScan

/-!
# Packages of shards

The parser of shard names reads from the right. The last separator is found in front
of the count, since the digits behind it hold no hyphen, so the name written for a
prefix, an index and a count gives these three back whatever the prefix holds. The
reports of a package are accepted when the place in the list, in the name and in the
file agree, which leaves no room for the shards of another package.
-/

namespace MindOne.Engine

open CheckedArithmetic MindOne.Stream PaddedDecimals PlacedScan

/-! ### The last occurrence of a separator -/

section LastOccurrence
variable {α : Type} [DecidableEq α] {separator s before after : List α}

theorem rsplitOnce_of_not_infix (h : ¬ separator <:+: s) : rsplitOnce separator s = none := by
  induction s with
  | nil => rfl
  | cons a rest ih =>
      rw [List.infix_cons_iff, not_or] at h
      simp only [rsplitOnce, ih h.2, if_neg h.1]

/-- The separator is found where none starts any later. -/
theorem rsplitOnce_of_last {c : α} (h : ¬ c :: separator <:+: separator ++ after) :
    rsplitOnce (c :: separator) (before ++ (c :: separator ++ after)) = some (before, after) := by
  induction before with
  | nil =>
      have hstarts : c :: separator <+: c :: (separator ++ after) :=
        List.prefix_append (c :: separator) after
      have hdrop : (c :: (separator ++ after)).drop (c :: separator).length = after :=
        List.drop_left' rfl
      simp only [List.nil_append, List.cons_append, rsplitOnce, rsplitOnce_of_not_infix h,
        if_pos hstarts, hdrop]
  | cons a rest ih => simp only [List.cons_append] at ih ⊢; simp only [rsplitOnce, ih]

end LastOccurrence

/-! ### Names -/

/-- The path of a text: empty components and single dots do not count. -/
def PathBuf.ofText (text : List Char) : PathBuf :=
  ⟨((text.splitOn '/').filter fun component => component ≠ [] ∧ component ≠ ['.']).map
    String.ofList⟩

/-- The spelling of a shard's name before its extension. -/
def splitStem (splitPrefix : List Char) (index count : Nat) : List Char :=
  splitPrefix ++ '-' :: zeroPadded 5 index ++ "-of-".toList ++ zeroPadded 5 count

def splitFileName (splitPrefix : List Char) (index count : Nat) (suffix : List Char) : List Char :=
  splitStem splitPrefix index count ++ '.' :: suffix

theorem parseDigits_eq (raw : List Char) : parseDigits raw = Nat.ofDigitChars 10 raw 0 := by
  have hstep : (fun value c => value * 10 + (Char.toNat c - 48)) =
      fun value c => 10 * value + (Char.toNat c - '0'.toNat) := by
    funext value c
    rw [Nat.mul_comm]
    rfl
  rw [parseDigits, hstep]
  rfl

theorem isSplitNumber_zeroPadded {n : Nat} (h : n < 10 ^ 5) : IsSplitNumber (zeroPadded 5 n) :=
  ⟨length_zeroPadded (by omega) h, List.all_eq_true.mpr fun _ => isDigit_of_mem_zeroPadded⟩

theorem zeroPadded_parseDigits {raw : List Char} (h : IsSplitNumber raw) :
    zeroPadded 5 (parseDigits raw) = raw := by
  have hne : raw ≠ [] := by
    rintro rfl
    cases h.1
  rw [parseDigits_eq, ← h.1]
  exact zeroPadded_ofDigitChars hne (List.all_eq_true.mp h.2)

theorem parseDigits_zeroPadded (n : Nat) : parseDigits (zeroPadded 5 n) = n := by
  rw [parseDigits_eq, ofDigitChars_zeroPadded]

theorem hyphen_not_mem_zeroPadded (n : Nat) : '-' ∉ zeroPadded 5 n := by
  intro hmem
  cases isDigit_of_mem_zeroPadded hmem

/-- The separator has two hyphens, and behind its first one only one is left. -/
theorem rsplitOnce_of_digits {before digits : List Char} (h : '-' ∉ digits) :
    rsplitOnce "-of-".toList (before ++ "-of-".toList ++ digits) = some (before, digits) := by
  have hlast : ¬ '-' :: "of-".toList <:+: "of-".toList ++ digits := by
    intro hinfix
    have hcount := hinfix.count_le '-'
    rw [List.count_append, List.count_eq_zero_of_not_mem h] at hcount
    exact absurd hcount (by decide)
  rw [List.append_assoc]
  exact rsplitOnce_of_last hlast

theorem components_ofText {name : List Char} (hslash : '/' ∉ name) (hne : name ≠ [])
    (hdot : name ≠ ['.']) : PathBuf.ofText name = ⟨[String.ofList name]⟩ := by
  have hsingle : name.splitOn '/' = [name] := by
    refine List.splitOnP_eq_singleton fun c hc => ?_
    rw [beq_eq_false_iff_ne]
    rintro rfl
    exact hslash hc
  have hkeep : [name].filter (fun component => component ≠ [] ∧ component ≠ ['.']) = [name] :=
    List.filter_eq_self.mpr fun component hmem => by
      rw [List.mem_singleton.mp hmem]
      exact decide_eq_true ⟨hne, hdot⟩
  rw [PathBuf.ofText, hsingle, hkeep]
  rfl

section Parse
variable {path : PathBuf} {splitPrefix suffix : List Char} {index count : Nat}

theorem parse_congr {other : PathBuf} (h : path.fileName = other.fileName) :
    parseGgufSplitFilename path = parseGgufSplitFilename other := by
  simp only [parseGgufSplitFilename, h]

theorem dot_not_mem_gguf (h : suffix.map Char.toLower = "gguf".toList) : '.' ∉ suffix := by
  intro hmem
  have hlower := List.mem_map_of_mem (f := Char.toLower) hmem
  rw [h] at hlower
  exact absurd hlower (by decide)

/-- The parser returns what the name was written for. -/
theorem parse_of_splitFileName (hnonempty : splitPrefix ≠ [])
    (hsuffix : suffix.map Char.toLower = "gguf".toList)
    (hindex : 1 ≤ index ∧ index ≤ count) (hcount : 2 ≤ count ∧ count ≤ 256)
    (hname : path.fileName = some (String.ofList (splitFileName splitPrefix index count suffix))) :
    parseGgufSplitFilename path = some ⟨splitPrefix, index, count⟩ := by
  have hne : splitStem splitPrefix index count ≠ [] := by
    intro hempty
    rw [splitStem, List.append_assoc, List.append_assoc, List.append_eq_nil_iff] at hempty
    exact hnonempty hempty.1
  have hextension : extension (splitFileName splitPrefix index count suffix) = some suffix :=
    extension_append hne (dot_not_mem_gguf hsuffix)
  have hfour : suffix.length = 4 := by
    rw [← List.length_map Char.toLower, hsuffix]
    rfl
  have hstem : (splitFileName splitPrefix index count suffix).take
      ((splitFileName splitPrefix index count suffix).length - 5) =
        splitStem splitPrefix index count := by
    rw [splitFileName, List.length_append, List.length_cons, hfour, Nat.add_sub_cancel]
    exact List.take_left' rfl
  have hcounted : rsplitOnce "-of-".toList (splitStem splitPrefix index count) =
      some (splitPrefix ++ '-' :: zeroPadded 5 index, zeroPadded 5 count) :=
    rsplitOnce_of_digits (hyphen_not_mem_zeroPadded count)
  have hindexed : rsplitOnce ['-'] (splitPrefix ++ '-' :: zeroPadded 5 index) =
      some (splitPrefix, zeroPadded 5 index) :=
    rsplitOnce_append (hyphen_not_mem_zeroPadded index)
  have hnumbers : splitPrefix ≠ [] ∧ IsSplitNumber (zeroPadded 5 index) ∧
      IsSplitNumber (zeroPadded 5 count) :=
    ⟨hnonempty, isSplitNumber_zeroPadded (by omega), isSplitNumber_zeroPadded (by omega)⟩
  have hbounds : (2 ≤ count ∧ count ≤ 256) ∧ index ≠ 0 ∧ index ≤ count :=
    ⟨hcount, by omega, hindex.2⟩
  simp only [parseGgufSplitFilename, hname, Option.bind_eq_bind, Option.bind_some,
    String.toList_ofList, hextension, if_pos hsuffix, hstem, hcounted, hindexed, if_pos hnumbers,
    parseDigits_zeroPadded, if_pos hbounds]

/-- A name that is accepted is the one written for what it gives, whatever the case of the
extension. -/
theorem splitFileName_of_parse {parsed : GgufSplitFileName}
    (h : parseGgufSplitFilename path = some parsed) :
    parsed.splitPrefix ≠ [] ∧ (1 ≤ parsed.index ∧ parsed.index ≤ parsed.count) ∧
      (2 ≤ parsed.count ∧ parsed.count ≤ 256) ∧
      ∃ suffix, suffix.map Char.toLower = "gguf".toList ∧
        path.fileName = some (String.ofList
          (splitFileName parsed.splitPrefix parsed.index parsed.count suffix)) := by
  simp only [parseGgufSplitFilename, Option.bind_eq_bind, Option.bind_eq_some_iff] at h
  obtain ⟨name, hname, suffix, hextension, h⟩ := h
  rw [Option.ite_none_right_eq_some] at h
  obtain ⟨hgguf, h⟩ := h
  simp only [Option.bind_eq_some_iff] at h
  obtain ⟨⟨withIndex, countRaw⟩, hcount, ⟨splitPrefix, indexRaw⟩, hindex, h⟩ := h
  rw [Option.ite_none_right_eq_some] at h
  obtain ⟨⟨hstem, hindexRaw, hcountRaw⟩, h⟩ := h
  rw [Option.ite_none_right_eq_some] at h
  obtain ⟨⟨hbounds, hpos, hle⟩, hparsed⟩ := h
  cases hparsed
  refine ⟨hstem, ⟨Nat.one_le_iff_ne_zero.mpr hpos, hle⟩, hbounds, suffix, hgguf, ?_⟩
  obtain ⟨stem, hsplit, -⟩ := split_of_extension hextension
  have hfour : suffix.length = 4 := by
    rw [← List.length_map Char.toLower, hgguf]
    rfl
  have htake : name.toList.take (name.toList.length - 5) = stem := by
    rw [hsplit, List.length_append, List.length_cons, hfour, Nat.add_sub_cancel]
    exact List.take_left' rfl
  have hfront : stem = withIndex ++ "-of-".toList ++ countRaw := by
    rw [← htake]
    exact eq_of_rsplitOnce hcount
  have hplace : withIndex = splitPrefix ++ '-' :: indexRaw := by
    rw [← List.singleton_append, ← List.append_assoc]
    exact eq_of_rsplitOnce hindex
  have hstem : stem = splitStem splitPrefix (parseDigits indexRaw) (parseDigits countRaw) := by
    rw [splitStem, zeroPadded_parseDigits hindexRaw, zeroPadded_parseDigits hcountRaw, hfront,
      hplace]
  rw [hname, Option.some.injEq, ← String.toList_inj, String.toList_ofList, hsplit, hstem]
  rfl

/-- A file name holds no slash, and then the text of the name is the path. -/
theorem parse_ofText (hslash : '/' ∉ splitPrefix) (hstem : splitPrefix ≠ [])
    (hindex : 1 ≤ index ∧ index ≤ count) (hcount : 2 ≤ count ∧ count ≤ 256) :
    parseGgufSplitFilename
        (PathBuf.ofText (splitFileName splitPrefix index count "gguf".toList)) =
      some ⟨splitPrefix, index, count⟩ := by
  have hdigits (n : Nat) : '/' ∉ zeroPadded 5 n := by
    intro hmem
    cases isDigit_of_mem_zeroPadded hmem
  have hname : '/' ∉ splitFileName splitPrefix index count "gguf".toList := by
    simp [splitFileName, splitStem, hslash, hdigits]
  have hlong : 5 < (splitFileName splitPrefix index count "gguf".toList).length := by
    simp [splitFileName, splitStem]
    omega
  have hgguf : "gguf".toList.map Char.toLower = "gguf".toList := by decide
  refine parse_of_splitFileName hstem hgguf hindex hcount ?_
  rw [components_ofText hname (by rintro h; rw [h] at hlong; cases hlong)
    (by rintro h; rw [h] at hlong; simp at hlong)]
  rfl

end Parse

/-! ### Packages -/

/-- A shard at its place, from 0, of a package of `count` shards. -/
structure ShardAt (directory : PathBuf) (splitPrefix : List Char) (count position : Nat)
    (report : ValidationReport) : Prop where
  format : report.format = .gguf
  parent : report.path.parent = some directory
  name : parseGgufSplitFilename report.path = some ⟨splitPrefix, position + 1, count⟩
  metadata : report.ggufSplit = some ⟨position, count⟩

/-- All shards of one package in their order. -/
structure IsSplitPackage (directory : PathBuf) (splitPrefix : List Char)
    (reports : List ValidationReport) : Prop where
  count : 2 ≤ reports.length ∧ reports.length ≤ 256
  shards : ∀ position report, reports[position]? = some report →
    ShardAt directory splitPrefix reports.length position report

section Scan
variable {directory : PathBuf} {count position : Nat} {report : ValidationReport}
  {scan after : SplitScan}

/-- One step accepts a shard that stands at its place. -/
theorem checkSplitReport_eq_ok :
    checkSplitReport directory count scan (report, position) = .ok after ↔
      ∃ splitPrefix name, ShardAt directory splitPrefix count position report ∧
        (∀ value ∈ scan.splitPrefix, value = splitPrefix) ∧
        report.path.fileName = some name ∧ name ∉ scan.names ∧
        after = ⟨some splitPrefix, name :: scan.names⟩ := by
  constructor
  · intro h
    simp only [checkSplitReport, bind_eq_ok, rejectIf_eq_ok, okOr_eq_ok] at h
    obtain ⟨_, hplace, parsed, hparsed, metadata, hmetadata, _, hnumbers, _, hsame, name, hname,
      _, hnew, hafter⟩ := h
    cases hafter
    simp only [not_or, not_not, not_exists, not_and] at hplace hnumbers hsame
    obtain ⟨hcount, hindex, hinner, hposition⟩ := hnumbers
    refine ⟨parsed.splitPrefix, name, ⟨hplace.1, hplace.2, ?_, ?_⟩, hsame, hname, hnew, ?_⟩
    · rw [hparsed, ← hcount, ← hindex]
    · rw [hmetadata, ← hinner, ← hposition]
    · cases hscan : scan.splitPrefix with
      | none => rfl
      | some value =>
          rw [hscan] at hsame
          rw [Option.getD_some, hsame value rfl]
  · rintro ⟨splitPrefix, name, hshard, hsame, hname, hnew, rfl⟩
    have hstem : scan.splitPrefix.getD splitPrefix = splitPrefix := by
      cases hscan : scan.splitPrefix with
      | none => rfl
      | some value => exact hsame value hscan
    have hplace : ¬ (report.format ≠ .gguf ∨ report.path.parent ≠ some directory) := by
      rintro (hformat | hparent)
      · exact hformat hshard.format
      · exact hparent hshard.parent
    have hdiffers : ¬ ∃ value ∈ scan.splitPrefix, value ≠ splitPrefix := by
      rintro ⟨value, hvalue, hne⟩
      exact hne (hsame value hvalue)
    simp only [checkSplitReport, bind_eq_ok, rejectIf_eq_ok, okOr_eq_ok]
    refine ⟨(), hplace, _, hshard.name, _, hshard.metadata, (), ?_, (), hdiffers, name, hname, (),
      hnew, ?_⟩
    · simp only [ne_eq, not_true_eq_false, or_self, not_false_eq_true]
    · rw [hstem]
      rfl

/-- The scan over the reports of a package. -/
def splitScanner (directory : PathBuf) (count : Nat) :
    Scanner ValidationError SplitScan ValidationReport (List Char) String where
  check := checkSplitReport directory count
  found := SplitScan.splitPrefix
  seen := SplitScan.names
  make := SplitScan.mk
  key report := report.path.fileName
  At splitPrefix position := ShardAt directory splitPrefix count position
  found_make _ _ := rfl
  seen_make _ _ := rfl
  check_eq_ok := checkSplitReport_eq_ok
  has_key hshard := by
    obtain ⟨-, -, -, suffix, -, hname⟩ := splitFileName_of_parse hshard.name
    exact ⟨_, hname⟩
  place_of_key hx hy hkey := by
    have hname := parse_congr hkey
    rw [hx.name, hy.name, Option.some.injEq, GgufSplitFileName.mk.injEq] at hname
    exact Nat.add_right_cancel hname.2.1

end Scan

section Packages
variable {directory directory' : PathBuf} {splitPrefix splitPrefix' : List Char}
  {reports package other first second mixed : List ValidationReport}

/-- Accepted are the packages. -/
theorem validateGgufSplitReports_eq_ok :
    validateGgufSplitReports reports = .ok () ↔
      ∃ directory splitPrefix, IsSplitPackage directory splitPrefix reports := by
  constructor
  · intro h
    simp only [validateGgufSplitReports, bind_eq_ok, rejectIf_eq_ok, okOr_eq_ok, not_not] at h
    obtain ⟨_, hcount, directory, -, after, hscan, -⟩ := h
    obtain ⟨splitPrefix, hshards⟩ := (splitScanner directory reports.length).scan_iff.mp
      ⟨after, hscan⟩
    exact ⟨directory, splitPrefix, hcount, hshards⟩
  · rintro ⟨directory, splitPrefix, hpackage⟩
    have hfirst : ∃ report, reports.head? = some report ∧
        report.path.parent = some directory := by
      cases reports with
      | nil => exact absurd hpackage.count.1 (by decide)
      | cons report rest => exact ⟨report, rfl, (hpackage.shards 0 report rfl).parent⟩
    obtain ⟨report, hhead, hparent⟩ := hfirst
    obtain ⟨after, hscan⟩ := (splitScanner directory reports.length).scan_iff.mpr
      ⟨splitPrefix, hpackage.shards⟩
    simp only [validateGgufSplitReports, bind_eq_ok, rejectIf_eq_ok, okOr_eq_ok, not_not]
    refine ⟨(), hpackage.count, directory, ?_, after, hscan, rfl⟩
    rw [hhead]
    exact hparent

/-- A shard of a package has one place, in that package. -/
theorem IsSplitPackage.place {count position : Nat} {report : ValidationReport}
    (h : IsSplitPackage directory splitPrefix package) (hmem : report ∈ package)
    (hshard : ShardAt directory' splitPrefix' count position report) :
    (directory', splitPrefix', count) = (directory, splitPrefix, package.length) ∧
      package[position]? = some report := by
  obtain ⟨place, hplace⟩ := List.mem_iff_getElem?.mp hmem
  have hown := h.shards place report hplace
  have hparent := Option.some.inj (hshard.parent.symm.trans hown.parent)
  have hname := Option.some.inj (hshard.name.symm.trans hown.name)
  simp only [GgufSplitFileName.mk.injEq, Nat.add_right_cancel_iff] at hname
  obtain ⟨hstem, hposition, hcount⟩ := hname
  rw [hparent, hstem, hcount, hposition]
  exact ⟨rfl, hplace⟩

/-- A package whose shards all are among those of another one is that package. -/
theorem IsSplitPackage.eq_of_subset (h : IsSplitPackage directory splitPrefix package)
    (hother : IsSplitPackage directory' splitPrefix' other) (hsubset : other ⊆ package) :
    other = package := by
  have hplace : ∀ (position : Nat) report, other[position]? = some report →
      other.length = package.length ∧ package[position]? = some report := by
    intro position report hreport
    have hmem := hsubset (List.mem_of_getElem? hreport)
    obtain ⟨hkey, hat⟩ := h.place hmem (hother.shards position report hreport)
    exact ⟨congrArg (fun key => key.2.2) hkey, hat⟩
  have hpos : 0 < other.length := Nat.lt_of_lt_of_le (by omega) hother.count.1
  have hlength := (hplace 0 _ (List.getElem?_eq_getElem hpos)).1
  refine List.ext_getElem? fun position => ?_
  cases hreport : other[position]? with
  | none =>
      rw [List.getElem?_eq_none_iff, hlength] at hreport
      exact (List.getElem?_eq_none_iff.mpr hreport).symm
  | some report => exact (hplace position report hreport).2.symm

/-- What is put together from two different packages and accepted is one of them. -/
theorem IsSplitPackage.eq_of_mixture (hfirst : IsSplitPackage directory splitPrefix first)
    (hsecond : IsSplitPackage directory' splitPrefix' second)
    (hdiffer : (directory, splitPrefix, first.length) ≠
      (directory', splitPrefix', second.length))
    {place : PathBuf} {name : List Char} (hmixed : IsSplitPackage place name mixed)
    (hsubset : mixed ⊆ first ++ second) : mixed = first ∨ mixed = second := by
  have hkey : ∀ report ∈ mixed, ∃ position, ShardAt place name mixed.length position report := by
    intro report hmem
    obtain ⟨position, hposition⟩ := List.mem_iff_getElem?.mp hmem
    exact ⟨position, hmixed.shards position report hposition⟩
  by_cases hown : (place, name, mixed.length) = (directory, splitPrefix, first.length)
  · refine .inl (hfirst.eq_of_subset hmixed fun report hmem => ?_)
    obtain ⟨position, hshard⟩ := hkey report hmem
    refine (List.mem_append.mp (hsubset hmem)).resolve_right fun hforeign => ?_
    exact hdiffer (hown.symm.trans (hsecond.place hforeign hshard).1)
  · refine .inr (hsecond.eq_of_subset hmixed fun report hmem => ?_)
    obtain ⟨position, hshard⟩ := hkey report hmem
    refine (List.mem_append.mp (hsubset hmem)).resolve_left fun hforeign => ?_
    exact hown (hfirst.place hforeign hshard).1

end Packages

/-- The names and the packages of shards: a file name is accepted exactly when it is written
for a prefix, an index and a count, and a list exactly when it is one package; so no list
made of other shards, of fewer, or of those of two different packages is accepted. -/
theorem splitPackages_exact :
    (∀ splitPrefix index count, splitPrefix ≠ [] → '/' ∉ splitPrefix →
      1 ≤ index ∧ index ≤ count → 2 ≤ count ∧ count ≤ 256 →
      parseGgufSplitFilename
          (PathBuf.ofText (splitFileName splitPrefix index count "gguf".toList)) =
        some ⟨splitPrefix, index, count⟩) ∧
    (∀ path parsed, parseGgufSplitFilename path = some parsed →
      parsed.splitPrefix ≠ [] ∧ (1 ≤ parsed.index ∧ parsed.index ≤ parsed.count) ∧
        (2 ≤ parsed.count ∧ parsed.count ≤ 256) ∧
        ∃ suffix, suffix.map Char.toLower = "gguf".toList ∧
          path.fileName = some (String.ofList
            (splitFileName parsed.splitPrefix parsed.index parsed.count suffix))) ∧
    (∀ reports, validateGgufSplitReports reports = .ok () ↔
      ∃ directory splitPrefix, IsSplitPackage directory splitPrefix reports) ∧
    (∀ package other, validateGgufSplitReports package = .ok () →
      validateGgufSplitReports other = .ok () → other ⊆ package ∨ package ⊆ other →
      other = package) ∧
    (∀ directory splitPrefix first directory' splitPrefix' second mixed,
      IsSplitPackage directory splitPrefix first →
      IsSplitPackage directory' splitPrefix' second →
      (directory, splitPrefix, first.length) ≠ (directory', splitPrefix', second.length) →
      validateGgufSplitReports mixed = .ok () → mixed ⊆ first ++ second →
      mixed = first ∨ mixed = second) := by
  refine ⟨?_, ?_, ?_, ?_, ?_⟩
  · intro splitPrefix index count hstem hslash hindex hcount
    exact parse_ofText hslash hstem hindex hcount
  · intro path parsed hparsed
    exact splitFileName_of_parse hparsed
  · intro reports
    exact validateGgufSplitReports_eq_ok
  · intro package other hpackage hother hsubset
    obtain ⟨_, _, hpackage⟩ := validateGgufSplitReports_eq_ok.mp hpackage
    obtain ⟨_, _, hother⟩ := validateGgufSplitReports_eq_ok.mp hother
    cases hsubset with
    | inl hfewer => exact hpackage.eq_of_subset hother hfewer
    | inr hmore => exact (hother.eq_of_subset hpackage hmore).symm
  · intro directory splitPrefix first directory' splitPrefix' second mixed hfirst hsecond hdiffer
      haccepted hsubset
    obtain ⟨_, _, hmixed⟩ := validateGgufSplitReports_eq_ok.mp haccepted
    exact hfirst.eq_of_mixture hsecond hdiffer hmixed hsubset

theorem splitPackages_exact_sample :
    parseGgufSplitFilename (PathBuf.ofText "a-00001-of-00009-00002-of-00003.gguf".toList) =
      some ⟨"a-00001-of-00009".toList, 2, 3⟩ :=
  splitPackages_exact.1 "a-00001-of-00009".toList 2 3 (by decide) (by decide) (by decide)
    (by decide)

/-- The report of a shard in a directory of its own. -/
def shardReport (name : String) (position count : Nat) : ValidationReport where
  path := ⟨["models", name]⟩
  format := .gguf
  sizeBytes := 24
  sha256 := "00"
  modifiedUnix := 0
  compatibleEngines := ModelFormat.gguf.compatibleEngines
  verifiedAtUnix := 0
  ggufSplit := some ⟨position, count⟩

/-- A slash ends the file name, and names in the two cases of the extension make packages
with one prefix, whose shards can stand for each other. -/
theorem splitPackages_fails :
    (¬ ∀ splitPrefix index count, splitPrefix ≠ [] → 1 ≤ index ∧ index ≤ count →
      2 ≤ count ∧ count ≤ 256 →
      parseGgufSplitFilename
          (PathBuf.ofText (splitFileName splitPrefix index count "gguf".toList)) =
        some ⟨splitPrefix, index, count⟩) ∧
    (¬ ∀ first second mixed, validateGgufSplitReports first = .ok () →
      validateGgufSplitReports second = .ok () → validateGgufSplitReports mixed = .ok () →
      mixed ⊆ first ++ second → mixed = first ∨ mixed = second) := by
  constructor
  · intro h
    exact absurd (h "a/b".toList 1 2 (by decide) (by decide) (by decide)) (by decide +kernel)
  · intro h
    let lower : List ValidationReport :=
      [shardReport "m-00001-of-00002.gguf" 0 2, shardReport "m-00002-of-00002.gguf" 1 2]
    let upper : List ValidationReport :=
      [shardReport "m-00001-of-00002.GGUF" 0 2, shardReport "m-00002-of-00002.GGUF" 1 2]
    let mixed : List ValidationReport :=
      [shardReport "m-00001-of-00002.gguf" 0 2, shardReport "m-00002-of-00002.GGUF" 1 2]
    exact absurd (h lower upper mixed (by decide +kernel) (by decide +kernel) (by decide +kernel)
      (by decide +kernel)) (by decide +kernel)

end MindOne.Engine
