import ResMonitor.DiskRates
import ResMonitor.Lib.CStrings
import ResMonitor.LinuxResProvider

/-! # The files of `/proc`

How `LinuxResProvider` reads what the kernel prints: line by line into buffers
of fixed size, without a look at what the conversions return. A file that lacks
what is sought leaves variables unset that are used afterwards. -/

namespace ResMonitor
open StdString CStrings Streams

/-- What a reader runs into. -/
inductive ReadFault where
  /-- A variable is used that nothing was read into. -/
  | uninitialised
  /-- A token is used that `strtok` did not find. -/
  | nullToken
  /-- A pointer runs past the end of the line. -/
  | overrun
  /-- `atoi` meets a number that is none of `int`. -/
  | overflow
  | thrown (e : StdString.Exception)
  deriving DecidableEq, Repr

namespace LinuxResProvider

/-- `std::stoll(pch, nullptr, 10)` -/
def longLong (pch : Option (List Char)) : Except ReadFault Int :=
  match pch with
  | none => .error .nullToken
  | some s => (stoll s).mapError .thrown

/-- The tokens 3 and 7 of the line, from `sda` on. -/
def sectorsOf (pch : List Char) : Except ReadFault (Int × Int) := do
  let tokens := strtok [' ', '\t'] pch
  .ok (← longLong tokens[3]?, ← longLong tokens[7]?)

/-- The first half of `getHddSystemUsage`, on `/proc/diskstats`: the sectors that
were read and written. -/
def readDiskstats (ioStats : List Char) : Except ReadFault (Int × Int) :=
  match (fgets 128 ioStats).findSome? fun line => strstr line "sda ".toList with
  | none => .error .uninitialised
  | some pch => sectorsOf pch

/-- The loop over `/proc/self/io`: the bytes that were read, if any line said so,
and those that were written. -/
def selfIoLoop (readBytes : Option Int) : List (List Char) → Except ReadFault (Int × Int)
  | [] => .error .uninitialised
  | line :: lines =>
    if "rchar:".toList.isPrefixOf line then do
      selfIoLoop (some (← longLong (some (line.drop 6)))) lines
    else if "wchar:".toList.isPrefixOf line then do
      let writeBytes ← longLong (some (line.drop 6))
      match readBytes with
      | none => .error .uninitialised
      | some readBytes => .ok (readBytes, writeBytes)
    else selfIoLoop readBytes lines

/-- The first half of `getHddSelfUsage`, on `/proc/self/io`. -/
def readSelfIo (ioStats : List Char) : Except ReadFault (Int × Int) :=
  selfIoLoop none (fgets 64 ioStats)

/-- `fscanf(file, "cpu %llu %llu %llu %llu", ..)` on `/proc/stat`. -/
def readStat (file : List Char) : Except ReadFault CpuTimes :=
  if "cpu".toList.isPrefixOf file then
    Except.mapError .thrown do
      let (totalUser, file) ← scanLlu (file.drop 3)
      let (totalNiced, file) ← scanLlu file
      let (totalSys, file) ← scanLlu file
      let (totalIdle, _) ← scanLlu file
      .ok ⟨.ofNat totalUser, .ofNat totalNiced, .ofNat totalSys, .ofNat totalIdle⟩
  else .error .uninitialised

/-- `numProcessors`, from `/proc/cpuinfo`. -/
def countProcessors (file : List Char) : Nat :=
  (fgets 128 file).countP fun line => "processor".toList.isPrefixOf line

end LinuxResProvider

/-! ## Disks -/

/-- A line of `/proc/diskstats`: the numbers of the device, its name, seven
counters and what follows them. On a line that is measured, the counters are
numbers of `long long` and end within the buffer. -/
structure DiskLine where
  numbers : List Char
  name : List Char
  counters : List Nat
  more : List Char
  numbers_plain : ∀ c ∈ numbers, c.isDigit = true ∨ c = ' '
  name_plain : ' ' ∉ name ∧ '\n' ∉ name
  counters_length : counters.length = 7
  more_plain : ∀ c ∈ more, c.isDigit = true ∨ c = ' '
  counters_fit : "sda".toList <:+ name → ∀ n ∈ counters, n < 2 ^ 63
  short : "sda".toList <:+ name → (numbers ++ (name ++ ' ' ::
    (counters.map (Nat.toDigits 10)).flatMap (· ++ [' ']))).length ≤ 127

namespace DiskLine

/-- The counters, each with a blank behind it. -/
def counted (d : DiskLine) : List Char := (d.counters.map (Nat.toDigits 10)).flatMap (· ++ [' '])

def text (d : DiskLine) : List Char := d.numbers ++ (d.name ++ ' ' :: (d.counted ++ d.more))

def sectorsRead (d : DiskLine) : Nat := d.counters.get ⟨2, by simp [d.counters_length]⟩

def sectorsWritten (d : DiskLine) : Nat := d.counters.get ⟨6, by simp [d.counters_length]⟩

/-- The name ends like that of the first disk. -/
def IsSda (d : DiskLine) : Prop := "sda".toList <:+ d.name

instance (d : DiskLine) : Decidable d.IsSda := by
  unfold IsSda
  infer_instance

theorem not_mem_plain {c : Char} (hdigit : c.isDigit = false) (hblank : c ≠ ' ') {s : List Char}
    (h : ∀ c ∈ s, c.isDigit = true ∨ c = ' ') : c ∉ s := by
  intro hmem
  rcases h c hmem with hc | hc
  · rw [hdigit] at hc
    cases hc
  · exact hblank hc

theorem counted_plain (d : DiskLine) : ∀ c ∈ d.counted, c.isDigit = true ∨ c = ' ' := by
  intro c hc
  obtain ⟨token, htoken, hc⟩ := List.mem_flatMap.mp hc
  obtain ⟨n, -, rfl⟩ := List.mem_map.mp htoken
  rcases List.mem_append.mp hc with hc | hc
  · exact Or.inl ((decimal_toDigits n).digits c hc)
  · exact Or.inr (List.mem_singleton.mp hc)

theorem not_newline_text (d : DiskLine) : '\n' ∉ d.text := by
  have hnumbers := not_mem_plain (c := '\n') rfl (by simp) d.numbers_plain
  have hcounted := not_mem_plain (c := '\n') rfl (by simp) d.counted_plain
  have hmore := not_mem_plain (c := '\n') rfl (by simp) d.more_plain
  simp [text, hnumbers, d.name_plain.2, hcounted, hmore]

/-- Where `sda` is found in a part of the line that goes on behind the name. -/
theorem cutAt_sda (d : DiskLine) {s : List Char} (hs : 's' ∉ s) :
    cutAt "sda ".toList (d.numbers ++ (d.name ++ ' ' :: s)) =
      if d.IsSda then some (d.numbers ++ d.name.take (d.name.length - 3), s) else none := by
  have hnumbers := not_mem_plain (c := 's') rfl (by simp) d.numbers_plain
  have hnone : cutAt "sda ".toList s = none := cutAt_eq_none fun hinside =>
    hs (hinside.subset List.mem_cons_self)
  have hword := cutAt_word (show "sda".toList ≠ [] by simp) (show ' ' ∉ "sda".toList by simp)
    d.name_plain.1 s
  change cutAt ('s' :: ['d', 'a', ' ']) _ = _
  rw [cutAt_skip hnumbers]
  change (cutAt ("sda".toList ++ [' ']) _).map _ = _
  rw [hword]
  by_cases hsda : d.IsSda
  · have hsuffix : "sda".toList <:+ d.name := hsda
    rw [if_pos hsuffix, if_pos hsda]
    rfl
  · have hsuffix : ¬ "sda".toList <:+ d.name := hsda
    rw [if_neg hsuffix, if_neg hsda]
    change ((cutAt "sda ".toList s).map _).map _ = _
    rw [hnone]
    rfl

theorem not_mem_more (d : DiskLine) {c : Char} (hdigit : c.isDigit = false) (hblank : c ≠ ' ')
    (hnewline : c ≠ '\n') : c ∉ d.more ++ ['\n'] := by
  simp [not_mem_plain hdigit hblank d.more_plain, hnewline]

/-- No part of another disk's line is taken for that of the first disk. -/
theorem strstr_of_not_sda {d : DiskLine} (h : ¬ d.IsSda) {part : List Char}
    (hpart : part ∈ parts 127 (d.text ++ ['\n'])) : strstr part "sda ".toList = none := by
  have hmore : 's' ∉ d.counted ++ (d.more ++ ['\n']) := by
    rw [List.mem_append, not_or]
    exact ⟨not_mem_plain rfl (by simp) d.counted_plain,
      d.not_mem_more rfl (by simp) (by simp)⟩
  have htext : d.text ++ ['\n'] =
      d.numbers ++ (d.name ++ ' ' :: (d.counted ++ (d.more ++ ['\n']))) := by simp [text]
  have hcut := d.cutAt_sda hmore
  rw [if_neg h, ← htext] at hcut
  rw [strstr, cutAt_eq_none fun hinside =>
    not_isInfix_of_cutAt hcut (hinside.trans (isInfix_of_mem_parts hpart))]
  rfl

/-- The first part of the line goes on behind the counters. -/
theorem strstr_of_sda {d : DiskLine} (h : d.IsSda) :
    ∃ s rest, parts 127 (d.text ++ ['\n']) = (d.text ++ ['\n']).take 127 :: rest ∧
      strstr ((d.text ++ ['\n']).take 127) "sda ".toList =
        some ("sda ".toList ++ (d.counted ++ s)) := by
  have hshort : (d.numbers ++ (d.name ++ ' ' :: d.counted)).length ≤ 127 := d.short h
  obtain ⟨rest, hparts⟩ := exists_parts_cons (show 0 < 127 by omega)
    (show d.text ++ ['\n'] ≠ [] by simp)
  obtain ⟨behind, htake, hbehind⟩ : ∃ behind, (d.text ++ ['\n']).take 127 =
      d.numbers ++ (d.name ++ ' ' :: (d.counted ++ behind)) ∧ 's' ∉ behind := by
    have htext : d.text ++ ['\n'] =
        (d.numbers ++ (d.name ++ ' ' :: d.counted)) ++ (d.more ++ ['\n']) := by simp [text]
    refine ⟨(d.more ++ ['\n']).take (127 - (d.numbers ++ (d.name ++ ' ' :: d.counted)).length), ?_,
      fun hmem => d.not_mem_more rfl (by simp) (by simp) (List.mem_of_mem_take hmem)⟩
    rw [htext, List.take_append, List.take_of_length_le hshort]
    simp
  have hplain : 's' ∉ d.counted ++ behind := by
    rw [List.mem_append, not_or]
    exact ⟨not_mem_plain rfl (by simp) d.counted_plain, hbehind⟩
  refine ⟨behind, rest, hparts, ?_⟩
  rw [htake, strstr, d.cutAt_sda hplain, if_pos h]
  rfl

/-- The tokens of the first disk's line are read as its sectors. -/
theorem sectorsOf_counted {d : DiskLine} (h : d.IsSda) (s : List Char) :
    LinuxResProvider.sectorsOf ("sda ".toList ++ (d.counted ++ s)) =
      .ok ((d.sectorsRead : Int), (d.sectorsWritten : Int)) := by
  have hplain : ∀ token ∈ d.counters.map (Nat.toDigits 10),
      token ≠ [] ∧ ∀ c ∈ token, c ∉ [' ', '\t'] := by
    intro token htoken
    obtain ⟨n, -, rfl⟩ := List.mem_map.mp htoken
    have hdecimal := decimal_toDigits n
    refine ⟨hdecimal.nonempty, fun c hc hdelim => ?_⟩
    have hdigit := hdecimal.digits c hc
    simp only [List.mem_cons, List.not_mem_nil, or_false] at hdelim
    rcases hdelim with rfl | rfl <;> cases hdigit
  have htokens : strtok [' ', '\t'] ("sda ".toList ++ (d.counted ++ s)) =
      "sda".toList :: (d.counters.map (Nat.toDigits 10) ++ strtok [' ', '\t'] s) := by
    have hsda := strtok_append (show "sda".toList ≠ [] by simp)
      (show ∀ c ∈ "sda".toList, c ∉ [' ', '\t'] by simp) List.mem_cons_self (d.counted ++ s)
    rw [counted, strtok_flatMap List.mem_cons_self hplain] at hsda
    exact hsda
  have hcounter : ∀ i : Fin 7, LinuxResProvider.longLong
      (strtok [' ', '\t'] ("sda ".toList ++ (d.counted ++ s)))[i.val + 1]? =
        .ok ((d.counters.get (i.cast d.counters_length.symm) : Nat) : Int) := by
    intro i
    have hi : i.val < d.counters.length := by
      rw [d.counters_length]
      exact i.isLt
    have hfit := d.counters_fit h _ (List.get_mem d.counters (i.cast d.counters_length.symm))
    have hread := stoll_decimal (decimal_toDigits _) hfit [] [] nofun nofun
    rw [List.nil_append, List.append_nil] at hread
    rw [htokens, List.getElem?_cons_succ, List.getElem?_append_left (by simpa using hi),
      List.getElem?_map, List.getElem?_eq_getElem hi]
    change (stoll _).mapError _ = _
    exact congrArg _ hread
  have hread : LinuxResProvider.longLong
      (strtok [' ', '\t'] ("sda ".toList ++ (d.counted ++ s)))[3]? =
        .ok ((d.sectorsRead : Nat) : Int) :=
    hcounter 2
  have hwritten : LinuxResProvider.longLong
      (strtok [' ', '\t'] ("sda ".toList ++ (d.counted ++ s)))[7]? =
        .ok ((d.sectorsWritten : Nat) : Int) := hcounter 6
  unfold LinuxResProvider.sectorsOf
  dsimp only
  rw [hread, hwritten]
  rfl

end DiskLine

/-- **Which disk is measured.** The first one whose name ends with `sda`, if there
is one; its sectors are read and written as they stand there. -/
theorem LinuxResProvider.readDiskstats_text (disks : List DiskLine) :
    readDiskstats (disks.flatMap fun d => d.text ++ ['\n']) =
      match disks.find? (·.IsSda) with
      | none => .error .uninitialised
      | some d => .ok ((d.sectorsRead : Int), (d.sectorsWritten : Int)) := by
  have hpieces : fgets 128 (disks.flatMap fun d => d.text ++ ['\n']) =
      disks.flatMap fun d => parts 127 (d.text ++ ['\n']) := by
    have hlines := fgets_lines (n := 128) (by omega)
      fun line (hline : line ∈ disks.map DiskLine.text) => by
        obtain ⟨d, -, rfl⟩ := List.mem_map.mp hline
        exact d.not_newline_text
    rwa [List.flatMap_map, List.flatMap_map] at hlines
  rw [readDiskstats, hpieces]
  clear hpieces
  induction disks with
  | nil => rfl
  | cons d disks ih =>
    rw [List.flatMap_cons, List.findSome?_append]
    by_cases hsda : d.IsSda
    · obtain ⟨s, rest, hparts, hfound⟩ := DiskLine.strstr_of_sda hsda
      rw [hparts, List.findSome?_cons_of_isSome (by rw [hfound]; rfl), hfound, Option.some_or,
        List.find?_cons_of_pos (by simpa using hsda)]
      exact DiskLine.sectorsOf_counted hsda s
    · have hnone : (parts 127 (d.text ++ ['\n'])).findSome? (fun line =>
          strstr line "sda ".toList) = none :=
        List.findSome?_eq_none_iff.mpr fun part hpart => DiskLine.strstr_of_not_sda hsda hpart
      rw [hnone, Option.none_or, List.find?_cons_of_neg (by simpa using hsda)]
      exact ih

/-- A loop device. -/
def loopLine : DiskLine where
  numbers := "   7       0 ".toList
  name := "loop0".toList
  counters := [42, 0, 698, 10, 0, 0, 0]
  more := "0 0 24 10".toList
  numbers_plain := by simp
  name_plain := by simp
  counters_length := rfl
  more_plain := by simp
  counters_fit := by decide
  short := by decide

/-- The first disk. -/
def sdaLine : DiskLine where
  numbers := "   8       0 ".toList
  name := "sda".toList
  counters := [11253, 4021, 885426, 5180, 7426, 9214, 300696]
  more := "11500 0 6420 16700".toList
  numbers_plain := by simp
  name_plain := by simp
  counters_length := rfl
  more_plain := by simp
  counters_fit := by decide
  short := by decide

theorem LinuxResProvider.readDiskstats_text_sda :
    readDiskstats ("   7       0 loop0 42 0 698 10 0 0 0 0 0 24 10\n" ++
      "   8       0 sda 11253 4021 885426 5180 7426 9214 300696 11500 0 6420 16700\n").toList =
      .ok (885426, 300696) := by
  have htext : ("   7       0 loop0 42 0 698 10 0 0 0 0 0 24 10\n" ++
      "   8       0 sda 11253 4021 885426 5180 7426 9214 300696 11500 0 6420 16700\n").toList =
      [loopLine, sdaLine].flatMap fun d => d.text ++ ['\n'] := by decide +kernel
  rw [htext, readDiskstats_text]
  decide

/-- On a line with longer counters the buffer ends before the seventh. -/
example : LinuxResProvider.readDiskstats ("   8       0 sda ".toList ++
    (List.replicate 7 (10 ^ 18)).flatMap fun n => Nat.toDigits 10 n ++ [' ']) =
      .error .nullToken := by decide +kernel

/-! ## The process -/

namespace LinuxResProvider

theorem length_toDigits_le {n k : Nat} (hk : 0 < k) (h : n < 10 ^ k) :
    (Nat.toDigits 10 n).length ≤ k := (Nat.length_toDigits_le_iff (by omega) hk).mpr h

/-- A line of `/proc/self/io` in its buffer. -/
theorem parts_ioLine (key : List Char) (hkey : key.length ≤ 6) {n : Nat} (hn : n < 2 ^ 63) :
    parts 63 ((key ++ ' ' :: Nat.toDigits 10 n) ++ ['\n']) =
      [key ++ ' ' :: (Nat.toDigits 10 n ++ ['\n'])] := by
  have hdigits := length_toDigits_le (n := n) (k := 19) (by omega) (by omega)
  rw [parts_of_le (by simp)]
  · simp
  · simp
    omega

theorem longLong_value {n : Nat} (hn : n < 2 ^ 63) :
    longLong (some (' ' :: (Nat.toDigits 10 n ++ ['\n']))) = .ok (n : Int) := by
  have hread := stoll_decimal (decimal_toDigits n) hn [' '] ['\n']
    (List.forall_mem_singleton.mpr rfl) (by rintro _ ⟨⟩; rfl)
  exact congrArg (Except.mapError ReadFault.thrown) hread

theorem selfIoLoop_rchar (readBytes : Option Int) (value : List Char) (lines : List (List Char)) :
    selfIoLoop readBytes (("rchar:".toList ++ value) :: lines) =
      (longLong (some value)).bind fun n => selfIoLoop (some n) lines := by
  have hdrop : ("rchar:".toList ++ value).drop 6 = value := rfl
  rw [selfIoLoop, if_pos (List.isPrefixOf_iff_prefix.mpr (List.prefix_append _ _)), hdrop]
  rfl

theorem selfIoLoop_wchar (readBytes : Int) (value : List Char) (lines : List (List Char)) :
    selfIoLoop (some readBytes) (("wchar:".toList ++ value) :: lines) =
      (longLong (some value)).bind fun n => .ok (readBytes, n) := by
  have hnot : ("rchar:".toList).isPrefixOf ("wchar:".toList ++ value) = false := rfl
  have hdrop : ("wchar:".toList ++ value).drop 6 = value := rfl
  rw [selfIoLoop, hnot, if_neg Bool.false_ne_true,
    if_pos (List.isPrefixOf_iff_prefix.mpr (List.prefix_append _ _)), hdrop]
  rfl

/-- What the kernel prints first in `/proc/self/io`. -/
def ioLines (readBytes writeBytes : Nat) : List (List Char) :=
  ["rchar:".toList ++ ' ' :: Nat.toDigits 10 readBytes,
    "wchar:".toList ++ ' ' :: Nat.toDigits 10 writeBytes]

theorem readSelfIo_ioLines {readBytes writeBytes : Nat} (hread : readBytes < 2 ^ 63)
    (hwrite : writeBytes < 2 ^ 63) (more : List Char) :
    readSelfIo ((ioLines readBytes writeBytes).flatMap (· ++ ['\n']) ++ more) =
      .ok ((readBytes : Int), (writeBytes : Int)) := by
  have hplain : ∀ line ∈ ioLines readBytes writeBytes, '\n' ∉ line := by
    have hdigits := fun n => not_isDigit (c := '\n') (decimal_toDigits n) rfl
    simp [ioLines, hdigits]
  rw [readSelfIo, fgets, fgetsLoop_lines (by omega) hplain, ioLines, List.flatMap_cons,
    List.flatMap_cons, List.flatMap_nil, parts_ioLine "rchar:".toList (Nat.le_refl _) hread,
    parts_ioLine "wchar:".toList (Nat.le_refl _) hwrite, List.append_nil, List.singleton_append,
    List.cons_append, selfIoLoop_rchar, longLong_value hread]
  change selfIoLoop _ _ = _
  rw [List.singleton_append, selfIoLoop_wchar, longLong_value hwrite]
  rfl

/-- What the kernel prints first in `/proc/stat`. -/
def statText (blanks : List Char) (user niced sys idle : Nat) : List Char :=
  "cpu".toList ++ (blanks ++ (Nat.toDigits 10 user ++ ' ' :: (Nat.toDigits 10 niced ++
    ' ' :: (Nat.toDigits 10 sys ++ ' ' :: Nat.toDigits 10 idle))))

theorem readStat_statText {blanks : List Char} (hblanks : ∀ c ∈ blanks, isSpace c = true)
    {user niced sys idle : Nat} (huser : user < 2 ^ 64) (hniced : niced < 2 ^ 64)
    (hsys : sys < 2 ^ 64) (hidle : idle < 2 ^ 64) {more : List Char}
    (hmore : ∀ c ∈ more.head?, c.isDigit = false) :
    readStat (statText blanks user niced sys idle ++ more) =
      .ok ⟨.ofNat user, .ofNat niced, .ofNat sys, .ofNat idle⟩ := by
  have hblank : ∀ c ∈ [' '], isSpace c = true := List.forall_mem_singleton.mpr rfl
  have hscan : ∀ {n : Nat} (rest : List Char), n < 2 ^ 64 →
      (∀ c ∈ rest.head?, c.isDigit = false) →
      scanLlu (' ' :: (Nat.toDigits 10 n ++ rest)) = .ok (n, rest) := fun rest hn hrest =>
    scanLlu_decimal (decimal_toDigits _) hn hblank hrest
  have hnext : ∀ (s : List Char), ∀ c ∈ (' ' :: s).head?, c.isDigit = false := by
    rintro s _ ⟨⟩
    rfl
  have htext : statText blanks user niced sys idle ++ more = "cpu".toList ++ (blanks ++
      (Nat.toDigits 10 user ++ ' ' :: (Nat.toDigits 10 niced ++ ' ' :: (Nat.toDigits 10 sys ++
        ' ' :: (Nat.toDigits 10 idle ++ more))))) := by simp [statText]
  have hdrop : ∀ s, ("cpu".toList ++ s).drop 3 = s := fun s => rfl
  rw [htext, readStat, if_pos (List.isPrefixOf_iff_prefix.mpr (List.prefix_append _ _)), hdrop,
    scanLlu_decimal (decimal_toDigits user) huser hblanks (hnext _)]
  dsimp only [bind, Except.bind]
  rw [hscan _ hniced (hnext _)]
  dsimp only
  rw [hscan _ hsys (hnext _)]
  dsimp only
  rw [hscan _ hidle hmore]
  rfl

/-- **When the processors are counted right.** Exactly if no line is cut where
`processor` stands. -/
theorem countProcessors_iff {lines : List (List Char)} (h : ∀ line ∈ lines, '\n' ∉ line) :
    countProcessors (lines.flatMap (· ++ ['\n'])) =
        lines.countP ("processor".toList.isPrefixOf ·) ↔
      ∀ line ∈ lines, ∀ k, 0 < k → ¬ "processor".toList <+: line.drop (k * 127) := by
  have hzero := fun line =>
    cutBegins_eq_zero (show 0 < 127 by omega) (show "processor".toList ≠ [] by simp) line
  simp only [← hzero]
  rw [countProcessors, fgets_lines (by omega) h]
  clear h hzero
  have hcount : ∀ lines : List (List Char),
      (lines.flatMap fun line => parts 127 (line ++ ['\n'])).countP
          ("processor".toList.isPrefixOf ·) =
        lines.countP ("processor".toList.isPrefixOf ·) +
          (lines.map (cutBegins 127 "processor".toList)).sum := by
    intro lines
    induction lines with
    | nil => rfl
    | cons line lines ih =>
      rw [List.flatMap_cons, List.countP_append, ih,
        countP_parts (by omega) (by simp) (by simp),
        List.countP_cons, List.map_cons, List.sum_cons]
      omega
  rw [hcount lines, Nat.add_eq_left, List.sum_eq_zero_iff]
  exact List.forall_mem_map

/-- A line of flags with a word that the buffer ends before. -/
def flagsLine : List Char := List.replicate 127 'f' ++ "processor".toList

theorem countProcessors_iff_flags :
    countProcessors (["processor\t: 0".toList, flagsLine].flatMap (· ++ ['\n'])) =
        ["processor\t: 0".toList, flagsLine].countP ("processor".toList.isPrefixOf ·) ↔
      ∀ line ∈ ["processor\t: 0".toList, flagsLine], ∀ k, 0 < k →
        ¬ "processor".toList <+: line.drop (k * 127) :=
  countProcessors_iff (List.forall_mem_cons.mpr
    ⟨by decide, List.forall_mem_singleton.mpr (by decide)⟩)

/-! ## What the states are made of -/

/-- The two files and the two times of `getHddState`. -/
def hddReading (diskstats selfIo : List Char) (systemMs selfMs : Int) :
    Except ReadFault HddReading := do
  let (sectorsRead, sectorsWritten) ← readDiskstats diskstats
  let (bytesRead, bytesWritten) ← readSelfIo selfIo
  .ok ⟨.ofInt sectorsRead, .ofInt sectorsWritten, systemMs, .ofInt bytesRead, .ofInt bytesWritten,
    selfMs⟩

variable {F : Type} [Double F]

/-- **From the files to a reading of the disk.** The counters that the rates are
computed from are those that the kernel printed. -/
theorem hddReading_text {disks : List DiskLine} {d : DiskLine}
    (hd : disks.find? (·.IsSda) = some d) {bytesRead bytesWritten : Nat}
    (hread : bytesRead < 2 ^ 63) (hwritten : bytesWritten < 2 ^ 63) (more : List Char)
    (systemMs selfMs : Int) :
    hddReading (disks.flatMap fun d => d.text ++ ['\n'])
        ((ioLines bytesRead bytesWritten).flatMap (· ++ ['\n']) ++ more) systemMs selfMs =
      .ok ⟨.ofNat d.sectorsRead, .ofNat d.sectorsWritten, systemMs, .ofNat bytesRead,
        .ofNat bytesWritten, selfMs⟩ := by
  rw [hddReading, readDiskstats_text, hd, readSelfIo_ioLines hread hwritten]
  rfl

end LinuxResProvider
end ResMonitor
