import Facelock.Pam.Insertion
import Facelock.RemoveAll.Run

/-!
# Copies that nobody has edited

The first two lines of a copy of a vendor file are comments that name the
file, the version that copied it and the date (`provenance_header`).
`exact_vendor_override_shape` decides from the bytes of a copy whether it
is still as it was written.  It removes the rule from the whole copy,
parses the two lines of what is left, and compares the rest with the
vendor file and the copy with a fresh insertion.

* `withLineRemoved_comment` moves the removal past a comment line.  The
  two header lines are such lines, so the removal never touches them.
* `vendorOverridePayload_copyHeader` and `vendorOverridePayload_eq_some`
  say that the parser accepts the headers that can be written and no
  others.  The version has no blank in it and the date has none either,
  so the last ` on ` of the line is the one between them.

The two give the contents the check accepts: a header followed by the
vendor file, with or without the one rule.

`apply_add` normalizes the path that it writes into the header, and the
check compares with the path as it is configured.  A header names one
file (`path_eq_of_copyHeader`), so the check knows a copy that `add` wrote
exactly if the configured path is normalized.
-/

namespace Facelock.Store

open Facelock.Pam List
open Lines

/-! ## Headers -/

/-- The first of the two lines.  `provenance_header` writes the version it
was built as; the check accepts every version. -/
def copiedLine (vendor version date : Bytes) : Bytes :=
  ascii "# Copied from " ++ vendor ++ ascii " by facelock " ++ version ++ ascii " on " ++
    date ++ ascii ".\n"

/-- The header of a copy that some version made on some day. -/
def copyHeader (vendor version date : Bytes) : Bytes :=
  copiedLine vendor version date ++ vendorOverrideHeaderSuffix

theorem provenanceHeader_eq (vendor date : Bytes) :
    provenanceHeader vendor date = copyHeader vendor packageVersion date := rfl

theorem notMem_of_versionOk {version byte} (h : versionOk version = true)
    (hbyte : (isAsciiAlphanumeric byte || byte = 46 || byte = 45 || byte = 43) = false) :
    byte ∉ version := by
  intro hmem
  simp only [versionOk, Bool.and_eq_true, all_eq_true] at h
  have := h.2 byte hmem
  rw [hbyte] at this
  exact Bool.noConfusion this

theorem notMem_of_dateOk {date byte} (h : dateOk date = true) (hdash : byte ≠ 45)
    (hdigit : isAsciiDigit byte = false) : byte ∉ date := by
  intro hmem
  simp only [dateOk, Bool.and_eq_true, all_eq_true] at h
  obtain ⟨i, hi⟩ := mem_iff_getElem?.mp hmem
  have := h.2 (byte, i) (mk_mem_zipIdx_iff_getElem?.mpr hi)
  split at this
  · exact hdash (of_decide_eq_true this)
  · rw [hdigit] at this
    exact Bool.noConfusion this

/-- A version and a date that a header can hold. -/
structure Stamp (version date : Bytes) : Prop where
  version : versionOk version = true
  date : dateOk date = true

section Header

variable {vendor version date : Bytes}

theorem terminated_copiedLine (hvendor : newline ∉ vendor) (h : Stamp version date) :
    Terminated newline (copiedLine vendor version date) := by
  refine ⟨ascii "# Copied from " ++ vendor ++ ascii " by facelock " ++ version ++ ascii " on " ++
    date ++ ascii ".", ?_, ?_⟩
  · have hv : newline ∉ version := notMem_of_versionOk h.version (by decide)
    have hd : newline ∉ date := notMem_of_dateOk h.date (by decide) (by decide)
    have hcopied : newline ∉ ascii "# Copied from " := by decide
    have hby : newline ∉ ascii " by facelock " := by decide
    have hon : newline ∉ ascii " on " := by decide
    have hdot : newline ∉ ascii "." := by decide
    simp only [mem_append, not_or]
    exact ⟨⟨⟨⟨⟨⟨hcopied, hvendor⟩, hby⟩, hv⟩, hon⟩, hd⟩, hdot⟩
  · have hend : ascii ".\n" = ascii "." ++ [newline] := by decide
    rw [copiedLine, hend, ← append_assoc]

theorem terminated_headerSuffix : Terminated newline vendorOverrideHeaderSuffix :=
  ⟨vendorOverrideHeaderSuffix.dropLast, by decide +kernel, by decide +kernel⟩

end Header

theorem eq_of_append_cons_eq {sep : UInt8} {front front' back back' : Bytes} (hback : sep ∉ back)
    (hback' : sep ∉ back') (h : front ++ sep :: back = front' ++ sep :: back') :
    front = front' := by
  rcases append_eq_append_iff.mp h with ⟨_ | ⟨byte, gap⟩, hfront, hrest⟩ |
    ⟨_ | ⟨byte, gap⟩, hfront, hrest⟩
  · simpa using hfront.symm
  · rw [cons_append, cons.injEq] at hrest
    exact absurd (hrest.2 ▸ by simp) hback
  · simpa using hfront
  · rw [cons_append, cons.injEq] at hrest
    exact absurd (hrest.2 ▸ by simp) hback'

theorem copiedLine_inj {vendor vendor' version version' date date' : Bytes}
    (hstamp : Stamp version date) (hstamp' : Stamp version' date')
    (h : copiedLine vendor version date = copiedLine vendor' version' date') :
    vendor = vendor' := by
  have hspace {v : Bytes} (hv : versionOk v = true) : (32 : UInt8) ∉ v :=
    notMem_of_versionOk hv (by decide)
  have hline (v n d : Bytes) : copiedLine v n d =
      ((ascii "# Copied from " ++ v ++ ascii " by facelock") ++ 32 :: n) ++
        (ascii " on " ++ d ++ ascii ".\n") := by
    have hby : ascii " by facelock " = ascii " by facelock" ++ [32] := by decide
    simp [copiedLine, hby]
  have hlength : (ascii " on " ++ date ++ ascii ".\n").length =
      (ascii " on " ++ date' ++ ascii ".\n").length := by
    have hdate := hstamp.date
    have hdate' := hstamp'.date
    simp only [dateOk, Bool.and_eq_true, decide_eq_true_eq] at hdate hdate'
    rw [length_append, length_append, length_append, length_append, hdate.1, hdate'.1]
  rw [hline, hline] at h
  have hfront := eq_of_append_cons_eq (hspace hstamp.version) (hspace hstamp'.version)
    (append_inj_left' h hlength)
  exact append_cancel_left (append_cancel_right hfront)

theorem path_eq_of_copyHeader {vendor vendor' version version' date date' bytes bytes' : Bytes}
    (hvendor : newline ∉ vendor) (hvendor' : newline ∉ vendor')
    (hstamp : Stamp version date) (hstamp' : Stamp version' date')
    (h : copyHeader vendor version date ++ bytes = copyHeader vendor' version' date' ++ bytes') :
    vendor = vendor' := by
  have hsplit := congrArg (Lines.split newline) h
  rw [copyHeader, copyHeader, append_assoc, append_assoc,
    split_terminated_append (terminated_copiedLine hvendor hstamp),
    split_terminated_append (terminated_copiedLine hvendor' hstamp')] at hsplit
  exact copiedLine_inj hstamp hstamp' (cons.inj hsplit).1

/-! ## The path in the header -/

section Names

variable {byte : UInt8} {path : Bytes}

theorem notMem_pathComponents (h : byte ∉ path) : ∀ name ∈ pathComponents path, byte ∉ name := by
  simp only [pathComponents, mem_map]
  rintro _ ⟨piece, hpiece, rfl⟩ hbyte
  refine h ?_
  rw [← flatten_split 47 path]
  exact mem_flatten_of_mem hpiece (mem_of_mem_filter hbyte)

theorem notMem_normalizeNames {names components found : List Bytes}
    (h : normalizeNames names components = some found) (hnames : ∀ name ∈ names, byte ∉ name)
    (hcomponents : ∀ name ∈ components, byte ∉ name) : ∀ name ∈ found, byte ∉ name := by
  fun_induction normalizeNames names components with
  | case1 names => rwa [← Option.some.inj h]
  | case2 names component rest hskip ih => exact ih h hnames (by grind)
  | case3 => cases h
  | case4 names rest hskip hne ih =>
    exact ih h (fun name hname => hnames name (mem_of_mem_dropLast hname)) (by grind)
  | case5 names component rest hskip hparent ih => exact ih h (by grind) (by grind)

theorem notMem_foldl_joinPath {names : List Bytes} {base : Bytes} (hslash : byte ≠ 47)
    (hnames : ∀ name ∈ names, byte ∉ name) (hbase : byte ∉ base) :
    byte ∉ names.foldl joinPath base := by
  induction names generalizing base with
  | nil => exact hbase
  | cons name names ih =>
    refine ih (fun n hn => hnames n (by simp [hn])) ?_
    have hname := hnames name (by simp)
    rw [joinPath]
    split <;> simp [hbase, hname, hslash]

/-- The normalization invents no bytes. -/
theorem notMem_headerPath (hslash : byte ≠ 47) (h : byte ∉ path) : byte ∉ headerPath path := by
  rw [headerPath]
  cases hnormal : normalizedConfiguredPath path with
  | none => exact h
  | some normal =>
    rw [normalizedConfiguredPath] at hnormal
    split at hnormal
    · obtain ⟨names, hnames, rfl⟩ := Option.map_eq_some_iff.mp hnormal
      have hfound := notMem_normalizeNames hnames (by simp) (notMem_pathComponents h)
      exact notMem_foldl_joinPath hslash hfound (by simpa [ascii] using hslash)
    · cases hnormal

end Names

/-! ## The removal keeps comments -/

theorem isSemantic_of_comment {line} (h : line.head? = some Pam.hash) :
    isSemantic line = false := by
  have hnil : semanticOf (lineContent line) = [] := by
    obtain ⟨rest, hrest⟩ := lineContent_prefix line
    cases hcontent : lineContent line with
    | nil => simp [semanticOf]
    | cons byte bytes =>
      have hbyte : byte = hash := by
        rw [← hrest, hcontent] at h
        exact Option.some.inj h
      have hstop : (byte :: bytes).findIdx? (· == Pam.hash) = some 0 := by
        rw [findIdx?_cons, hbyte]
        rfl
      rw [semanticOf, hstop]
      rfl
  rw [isSemantic, hnil]
  rfl

theorem withLineRemoved_comment {line} (hline : Terminated newline line)
    (hcomment : line.head? = some Pam.hash) (bytes : Bytes) :
    withLineRemoved (line ++ bytes) = line ++ withLineRemoved bytes := by
  rw [withLineRemoved_eq, withLineRemoved_eq, rawLines, split_terminated_append hline,
    segments_of_not_semantic (isSemantic_of_comment hcomment)]
  simp [keepLines, rawLines]

theorem withLineRemoved_copyHeader {vendor version date} (hvendor : newline ∉ vendor)
    (hstamp : Stamp version date) (bytes : Bytes) :
    withLineRemoved (copyHeader vendor version date ++ bytes) =
      copyHeader vendor version date ++ withLineRemoved bytes := by
  have hfirst : (copiedLine vendor version date).head? = some Pam.hash := by
    have hstart : ascii "# Copied from " = Pam.hash :: ascii " Copied from " := by decide
    simp [copiedLine, hstart]
  have hsecond : vendorOverrideHeaderSuffix.head? = some Pam.hash := by decide +kernel
  rw [copyHeader, append_assoc,
    withLineRemoved_comment (terminated_copiedLine hvendor hstamp) hfirst,
    withLineRemoved_comment terminated_headerSuffix hsecond, append_assoc]

/-! ## The parser of the header -/

theorem find?_reverse_range {p i n} (hi : i < n) (hp : p i = true)
    (hlater : ∀ j, i < j → j < n → p j = false) : (List.range n).reverse.find? p = some i := by
  induction n with
  | zero => omega
  | succ n ih =>
    rw [range_succ, reverse_append, reverse_singleton, singleton_append]
    by_cases hlast : i = n
    · subst hlast
      exact find?_cons_of_pos hp
    · rw [find?_cons_of_neg (by rw [hlater n (by omega) (by omega)]; exact Bool.noConfusion)]
      exact ih (by omega) fun j hj hjn => hlater j hj (by omega)

/-- The last ` on ` between a version and a date is the one that stands
between them. -/
theorem lastWindow_on {version date} (hdate : dateOk date = true) :
    lastWindow (ascii " on ") (version ++ ascii " on " ++ date) = some version.length := by
  have hon : ascii " on " = [32, 111, 110, 32] := by decide
  have hspace : (32 : UInt8) ∉ date := notMem_of_dateOk hdate (by decide) (by decide)
  have ho : (111 : UInt8) ∉ date := notMem_of_dateOk hdate (by decide) (by decide)
  rw [hon, lastWindow]
  apply find?_reverse_range
  · simp
  · simp
  · intro j hj hjlen
    obtain ⟨k, rfl⟩ := Nat.exists_eq_add_of_lt hj
    have hdrop : (version ++ [32, 111, 110, 32] ++ date).drop (version.length + k + 1) =
        ([111, 110, 32] ++ date).drop k := by
      rw [append_assoc, Nat.add_assoc, drop_append]
      simp
    rw [hdrop, decide_eq_false_iff_not]
    intro hwindow
    -- A window that starts later would need a blank or an `o` inside the date.
    match k with
    | 0 => simp at hwindow
    | 1 => simp at hwindow
    | 2 =>
      cases date with
      | nil => simp at hwindow
      | cons byte bytes =>
        simp only [length_cons, length_nil, cons_append, nil_append,
          drop_succ_cons, drop_zero, take_succ_cons, List.cons.injEq] at hwindow
        exact ho (by simp [hwindow.2.1])
    | m + 3 =>
      have hhead : (32 : UInt8) ∈ (date.drop m).take 4 := by
        have : ([111, 110, 32] ++ date).drop (m + 3) = date.drop m := rfl
        rw [show (date.drop m).take 4 = [32, 111, 110, 32] from hwindow]
        simp
      exact hspace (mem_of_mem_drop (mem_of_mem_take hhead))

theorem lastWindow_eq_some {part bytes i} (h : lastWindow part bytes = some i) :
    bytes = bytes.take i ++ part ++ bytes.drop (i + part.length) := by
  have hfound := find?_some h
  have hwindow : (bytes.drop i).take part.length = part := of_decide_eq_true hfound
  calc bytes = bytes.take i ++ bytes.drop i := (take_append_drop i bytes).symm
    _ = bytes.take i ++ ((bytes.drop i).take part.length ++ (bytes.drop i).drop part.length) := by
        rw [take_append_drop part.length]
    _ = bytes.take i ++ part ++ bytes.drop (i + part.length) := by
        rw [hwindow, drop_drop, append_assoc]

theorem stripStart_append (start bytes : Bytes) :
    stripStart start (start ++ bytes) = some bytes := by
  rw [stripStart, if_pos (prefix_append _ _), drop_left]

theorem stripStart_eq_some {start bytes rest} (h : stripStart start bytes = some rest) :
    bytes = start ++ rest := by
  unfold stripStart at h
  split at h
  · rename_i hstart
    obtain ⟨tail, rfl⟩ := hstart
    rw [drop_left] at h
    rw [Option.some.inj h]
  · cases h

theorem stripEnd_append (bytes ending : Bytes) :
    stripEnd ending (bytes ++ ending) = some bytes := by
  rw [stripEnd, if_pos (suffix_append _ _), length_append, Nat.add_sub_cancel, take_left]

theorem stripEnd_eq_some {ending bytes rest} (h : stripEnd ending bytes = some rest) :
    bytes = rest ++ ending := by
  unfold stripEnd at h
  split at h
  · rename_i hending
    obtain ⟨front, rfl⟩ := hending
    rw [length_append, Nat.add_sub_cancel, take_left] at h
    rw [Option.some.inj h]
  · cases h

/-- The steps of the parser, each with what it found. -/
theorem vendorOverridePayload_iff {content vendor payload} :
    vendorOverridePayload content vendor = some payload ↔
      ∃ first second rest body separator,
        content.findIdx? (· == newline) = some first ∧
        (content.drop (first + 1)).findIdx? (· == newline) = some second ∧
        slice content (first + 1) (first + 1 + second + 1) = vendorOverrideHeaderSuffix ∧
        stripStart (ascii "# Copied from " ++ vendor ++ ascii " by facelock ")
          (content.take (first + 1)) = some rest ∧
        stripEnd (ascii ".\n") rest = some body ∧
        lastWindow (ascii " on ") body = some separator ∧
        (versionOk (body.take separator) && dateOk (body.drop (separator + 4))) = true ∧
        content.drop (first + 1 + second + 1) = payload := by
  constructor
  · intro h
    simp only [vendorOverridePayload, Option.bind_eq_bind, Option.bind_eq_some_iff] at h
    obtain ⟨first, hfirst, second, hsecond, h⟩ := h
    split at h
    · cases h
    · rename_i hsuffix
      simp only [Option.bind_eq_some_iff] at h
      obtain ⟨rest, hrest, body, hbody, separator, hseparator, h⟩ := h
      split at h
      · rename_i hok
        exact ⟨first, second, rest, body, separator, hfirst, hsecond, not_not.mp hsuffix, hrest,
          hbody, hseparator, hok, Option.some.inj h⟩
      · cases h
  · rintro ⟨first, second, rest, body, separator, hfirst, hsecond, hsuffix, hrest, hbody,
      hseparator, hok, hpayload⟩
    simp only [vendorOverridePayload, Option.bind_eq_bind, hfirst, hsecond, Option.bind_some,
      hsuffix, ne_eq, not_true_eq_false, if_false, hrest, hbody, hseparator, hok, if_true, hpayload]

section Parser

variable {vendor version date : Bytes}

/-- The parser accepts every header that can be written. -/
theorem vendorOverridePayload_copyHeader (hvendor : newline ∉ vendor)
    (hstamp : Stamp version date) (payload : Bytes) :
    vendorOverridePayload (copyHeader vendor version date ++ payload) vendor = some payload := by
  have hline := terminated_copiedLine hvendor hstamp
  have hcontent : copyHeader vendor version date ++ payload =
      copiedLine vendor version date ++ (vendorOverrideHeaderSuffix ++ payload) := by
    rw [copyHeader, append_assoc]
  have hfirst : (copiedLine vendor version date).length - 1 + 1 =
      (copiedLine vendor version date).length := by
    obtain ⟨before, -, hbefore⟩ := hline
    rfl
  have hsecond (n : Nat) : n + (vendorOverrideHeaderSuffix.length - 1) + 1 =
      n + vendorOverrideHeaderSuffix.length := by
    have : vendorOverrideHeaderSuffix.length - 1 + 1 = vendorOverrideHeaderSuffix.length := by
      decide +kernel
    omega
  have hstart : copiedLine vendor version date = ascii "# Copied from " ++ vendor ++
      ascii " by facelock " ++ (version ++ ascii " on " ++ date ++ ascii ".\n") := by
    simp [copiedLine, append_assoc]
  have hversionEnd : version.length + 4 = (version ++ ascii " on ").length := by
    rw [length_append]
    rfl
  rw [hcontent, vendorOverridePayload_iff]
  refine ⟨(copiedLine vendor version date).length - 1, vendorOverrideHeaderSuffix.length - 1,
    version ++ ascii " on " ++ date ++ ascii ".\n", version ++ ascii " on " ++ date,
    version.length, findIdx?_terminated_append hline _, ?_, ?_, ?_, stripEnd_append _ _,
    lastWindow_on hstamp.date, ?_, ?_⟩
  · rw [hfirst, drop_left]
    exact findIdx?_terminated_append terminated_headerSuffix payload
  · rw [hfirst, hsecond, slice, drop_left, Nat.add_sub_cancel_left, take_left]
  · rw [hfirst, take_left]
    conv_lhs => rw [hstart]
    exact stripStart_append _ _
  · rw [hversionEnd, drop_left, append_assoc, take_left, hstamp.version, hstamp.date]
    rfl
  · rw [hfirst, hsecond, ← drop_drop, drop_left, drop_left]

theorem vendorOverridePayload_eq_some {content payload}
    (h : vendorOverridePayload content vendor = some payload) :
    ∃ version date, Stamp version date ∧
      content = copyHeader vendor version date ++ payload := by
  obtain ⟨first, second, rest, body, separator, -, -, hsuffix, hrest, hbody, hseparator, hok,
    hpayload⟩ := vendorOverridePayload_iff.mp h
  rw [Bool.and_eq_true] at hok
  refine ⟨body.take separator, body.drop (separator + 4), ⟨hok.1, hok.2⟩, ?_⟩
  have hline : content.take (first + 1) =
      copiedLine vendor (body.take separator) (body.drop (separator + 4)) := by
    have hsplit : body = body.take separator ++ ascii " on " ++ body.drop (separator + 4) :=
      lastWindow_eq_some hseparator
    rw [stripStart_eq_some hrest, stripEnd_eq_some hbody]
    conv_lhs => rw [hsplit]
    simp [copiedLine, append_assoc]
  have hlength : first + 1 + second + 1 - (first + 1) = second + 1 := by omega
  rw [slice, hlength] at hsuffix
  have hbelow : first + 1 + second + 1 = first + 1 + (second + 1) := by omega
  rw [hbelow, ← drop_drop] at hpayload
  calc content
      = content.take (first + 1) ++ ((content.drop (first + 1)).take (second + 1) ++
          (content.drop (first + 1)).drop (second + 1)) := by
        rw [take_append_drop, take_append_drop]
    _ = copyHeader vendor (body.take separator) (body.drop (separator + 4)) ++ payload := by
        rw [hline, hsuffix, hpayload, copyHeader, append_assoc]

end Parser

/-! ## The shape of an unchanged copy -/

/-- Metadata equal to the vendor file's. -/
def SameMetadata (identity vendor : FileIdentity) : Prop :=
  (identity.mode, identity.uid, identity.gid) = (vendor.mode, vendor.uid, vendor.gid)

/-- A header for the vendor file above the vendor file, with the rule or
without it. -/
def UnchangedCopy (vendor : ResolvedVendor) (content : Bytes) : Prop :=
  ∃ version date, Stamp version date ∧
    (content = copyHeader vendor.path version date ++ withLineInserted vendor.content ∨
      content = copyHeader vendor.path version date ++ vendor.content)

section Shape

variable {vendor : ResolvedVendor} {identity : FileIdentity} {content : Bytes}

/-- What the check accepts begins with a header for the vendor file. -/
theorem unchangedCopy_of_exactVendorOverrideShape
    (h : exactVendorOverrideShape content identity vendor = true) :
    UnchangedCopy vendor content := by
  unfold exactVendorOverrideShape at h
  cases hpayload : vendorOverridePayload (withLineRemoved content) vendor.path with
  | none =>
    simp only [hpayload] at h
    cases h
  | some payload =>
    obtain ⟨version, date, hstamp, hremoved⟩ := vendorOverridePayload_eq_some hpayload
    simp only [hpayload, Bool.and_eq_true, Bool.or_eq_true, decide_eq_true_eq] at h
    obtain ⟨⟨⟨hbytes, hcontent⟩, -⟩, -⟩ := h
    refine ⟨version, date, hstamp, ?_⟩
    have hheader : (withLineRemoved content).take
        ((withLineRemoved content).length - payload.length) =
          copyHeader vendor.path version date := by
      rw [hremoved, length_append, Nat.add_sub_cancel, take_left]
    rcases hbytes with hsame | hemitted
    · exact Or.inr (by rw [hsame, hremoved, hcontent])
    · exact Or.inl (by rw [hemitted, hheader])

/-- A content whose removal leaves a header and the vendor file is
accepted as what is left and as a fresh insertion. -/
theorem exactVendorOverrideShape_of_removed {version date}
    (hpath : newline ∉ vendor.path) (hrule : hasFacelockRule vendor.content = false)
    (hmetadata : SameMetadata identity vendor.identity) (hstamp : Stamp version date)
    (hremoved : withLineRemoved content = copyHeader vendor.path version date ++ vendor.content)
    (hbytes : content = copyHeader vendor.path version date ++ vendor.content ∨
      content = copyHeader vendor.path version date ++ withLineInserted vendor.content) :
    exactVendorOverrideShape content identity vendor = true := by
  have hheader : (withLineRemoved content).take
      ((withLineRemoved content).length - vendor.content.length) =
        copyHeader vendor.path version date := by
    rw [hremoved, length_append, Nat.add_sub_cancel, take_left]
  have hpayload : vendorOverridePayload (withLineRemoved content) vendor.path =
      some vendor.content := by
    rw [hremoved]
    exact vendorOverridePayload_copyHeader hpath hstamp vendor.content
  unfold exactVendorOverrideShape
  simp only [hpayload, hheader, hrule, Bool.and_eq_true, Bool.or_eq_true, decide_eq_true_eq,
    Bool.not_false, and_true]
  refine ⟨?_, hmetadata⟩
  rcases hbytes with hsame | hemitted
  · exact Or.inl (by rw [hremoved, hsame])
  · exact Or.inr hemitted

theorem exactVendorOverrideShape_iff_unchangedCopy (hpath : newline ∉ vendor.path)
    (hrule : hasFacelockRule vendor.content = false) (hheader : vendor.content ≠ pamHeader)
    (hmetadata : SameMetadata identity vendor.identity) :
    exactVendorOverrideShape content identity vendor = true ↔ UnchangedCopy vendor content := by
  refine ⟨unchangedCopy_of_exactVendorOverrideShape, ?_⟩
  rintro ⟨version, date, hstamp, rfl | rfl⟩
  · apply exactVendorOverrideShape_of_removed hpath hrule hmetadata hstamp
    · rw [withLineRemoved_copyHeader hpath hstamp,
        withLineRemoved_withLineInserted vendor.content hrule hheader]
    · exact Or.inr rfl
  · apply exactVendorOverrideShape_of_removed hpath hrule hmetadata hstamp
    · rw [withLineRemoved_copyHeader hpath hstamp, withLineRemoved_of_not_hasFacelockRule hrule]
    · exact Or.inl rfl

end Shape

/-- The contents that count as an unchanged copy.  What `apply_add` writes
is one of them exactly if the configured path is normalized. -/
theorem exactVendorOverrideShape_iff (vendor : ResolvedVendor) (hpath : newline ∉ vendor.path)
    (hrule : hasFacelockRule vendor.content = false) (hheader : vendor.content ≠ pamHeader)
    (identity : FileIdentity) (hmetadata : SameMetadata identity vendor.identity) :
    (∀ content, exactVendorOverrideShape content identity vendor = true ↔
      UnchangedCopy vendor content) ∧
      ∀ date, dateOk date = true →
        (exactVendorOverrideShape (overrideContent vendor.path vendor.content date)
          identity vendor = true ↔ headerPath vendor.path = vendor.path) := by
  have hshape {content} : exactVendorOverrideShape content identity vendor = true ↔
      UnchangedCopy vendor content :=
    exactVendorOverrideShape_iff_unchangedCopy hpath hrule hheader hmetadata
  refine ⟨fun _ => hshape, fun date hdate => ?_⟩
  have hstamp : Stamp packageVersion date := ⟨by decide +kernel, hdate⟩
  rw [hshape, overrideContent, provenanceHeader_eq]
  constructor
  · have hnormal : newline ∉ headerPath vendor.path := notMem_headerPath (by decide) hpath
    rintro ⟨version, date', hstamp', h | h⟩
    · exact path_eq_of_copyHeader hnormal hpath hstamp hstamp' h
    · exact path_eq_of_copyHeader hnormal hpath hstamp hstamp' h
  · intro hnormal
    exact ⟨packageVersion, date, hstamp, Or.inl (by rw [hnormal])⟩

/-- A vendor file of some directory, with one rule of its own. -/
def sudoVendor (root : Bytes) : ResolvedVendor :=
  { path := VendorRoot.servicePath ⟨root, fun _ => none⟩ "sudo"
    content := ascii "#%PAM-1.0\nauth include system-auth\n"
    identity := ⟨1, 7, 1, 3, 0o644, 0, 0⟩ }

/-- The identity of a copy of it. -/
def sudoCopy : FileIdentity := ⟨1, 9, 1, 5, 0o644, 0, 0⟩

theorem exactVendorOverrideShape_iff_sudo :
    (∀ content, exactVendorOverrideShape content sudoCopy (sudoVendor (ascii "/usr/lib/pam.d")) =
        true ↔ UnchangedCopy (sudoVendor (ascii "/usr/lib/pam.d")) content) ∧
      ∀ date, dateOk date = true →
        exactVendorOverrideShape (overrideContent (ascii "/usr/lib/pam.d/sudo")
          (ascii "#%PAM-1.0\nauth include system-auth\n") date) sudoCopy
          (sudoVendor (ascii "/usr/lib/pam.d")) = true := by
  have hpath : ascii "/usr/lib/pam.d/sudo" = (sudoVendor (ascii "/usr/lib/pam.d")).path := by
    decide +kernel
  have h := exactVendorOverrideShape_iff (sudoVendor (ascii "/usr/lib/pam.d")) (by decide +kernel)
    (by decide +kernel) (by decide +kernel) sudoCopy rfl
  rw [hpath]
  exact ⟨h.1, fun date hdate => (h.2 date hdate).mpr (by decide +kernel)⟩

/-- A doubled slash in the configured directory.  The header of the copy
names the normalized path, and the check looks for the configured one. -/
theorem unnormalized_root_hides_copy :
    headerPath (sudoVendor (ascii "/usr//lib/pam.d")).path = ascii "/usr/lib/pam.d/sudo" ∧
      exactVendorOverrideShape (overrideContent (sudoVendor (ascii "/usr//lib/pam.d")).path
        (sudoVendor (ascii "/usr//lib/pam.d")).content (ascii "2026-01-01")) sudoCopy
        (sudoVendor (ascii "/usr//lib/pam.d")) = false := by
  decide +kernel

end Facelock.Store
