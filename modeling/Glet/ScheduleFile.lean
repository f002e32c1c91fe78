import Glet.FixedPoint
import Glet.GpuIdxs
import Glet.Latency

/-!
# The schedule file

The scheduler hands its decision over in a file, a line for each task of a
node: GPU, thread cap, dedup number, model, batch size and duty cycle. What
`ProxyPartitionReader` reads is what `ProxyPartitionWriter` accepted, with the
duty cycles rounded (`schedule_round_trip`).
-/

namespace Glet.ScheduleFile

open Devices FixedPoint

/-! ## The records -/

/-- `task_config`; a duty cycle is a rational. -/
structure TaskConfig where
  nodeId : Int32
  dedupNum : Int32
  threadCap : Int32
  name : String
  batchSize : Int32
  dutyCycle : ℚ
  deriving DecidableEq

/-- An `assert` fails, or `stoi` or `stof` throws. -/
inductive FileFault where
  | assertion
  | invalidArgument
  deriving DecidableEq

/-! ## Writing -/

structure ProxyPartitionWriter where
  vecConfigs : List TaskConfig
  numOfGPU : Int32

/-- `ProxyPartitionWriter(filename, nGPU)`. -/
def openWriter (nGPU : Int32) : Except FileFault ProxyPartitionWriter :=
  if 0 < nGPU then .ok ⟨[], nGPU⟩ else .error .assertion

/-- "returns true, if something is wrong" -/
def addResults (w : ProxyPartitionWriter) (tconfig : TaskConfig) : Bool × ProxyPartitionWriter :=
  if ¬ (0 ≤ tconfig.nodeId ∧ tconfig.nodeId < w.numOfGPU) then (true, w)
  else if ¬ (0 < tconfig.threadCap ∧ tconfig.threadCap ≤ 100) then (true, w)
  else if tconfig.batchSize = 0 then (true, w)
  else if tconfig.dutyCycle < 0 then (true, w)
  else (false, { w with vecConfigs := w.vecConfigs ++ [tconfig] })

/-- `addResults` on each element; callers ignore what it returns. -/
def addAll (w : ProxyPartitionWriter) (tconfigs : List TaskConfig) : ProxyPartitionWriter :=
  tconfigs.foldl (fun w tconfig => (addResults w tconfig).2) w

/-- `%d`. -/
def printInt : Int → List Char
  | .ofNat n => Nat.toDigits 10 n
  | .negSucc n => '-' :: Nat.toDigits 10 (n + 1)

/-- `%s` of `c_str()`: what stands before a NUL. -/
def printStr (s : String) : List Char := s.toList.takeWhile (· ≠ '\x00')

/-- `fprintf` with "%d,%d,%d,%s,%d,%lf\n", without the newline. -/
def printConfig (c : TaskConfig) : List Char :=
  printInt c.nodeId.toInt ++ ',' :: (printInt c.threadCap.toInt ++ ',' ::
    (printInt c.dedupNum.toInt ++ ',' :: (printStr c.name ++ ',' ::
      (printInt c.batchSize.toInt ++ ',' :: fixed c.dutyCycle))))

/-- `writeResults`: the contents of the file. -/
def writeResults (w : ProxyPartitionWriter) : Except FileFault (List Char) :=
  if w.vecConfigs = [] then .error .assertion
  else .ok (w.vecConfigs.flatMap fun c => printConfig c ++ ['\n'])

/-- A file written in one go. -/
def writeFile (nGPU : Int32) (tconfigs : List TaskConfig) : Except FileFault (List Char) := do
  let w ← openWriter nGPU
  writeResults (addAll w tconfigs)

/-! ## Reading -/

/-- The lines `getline` finds; what follows the last newline is one unless it
is empty. -/
def fileLines (text : List Char) : List (List Char) :=
  let pieces := text.splitOn '\n'
  if pieces.getLast? = some [] then pieces.dropLast else pieces

/-- `getline(ss, token, ',')` on what is left of the stream: the token and what
is left then. After the end (`none`) the token stays what it was. -/
def getToken (token : List Char) : Option (List Char) → List Char × Option (List Char)
  | none => (token, none)
  | some cs => (cs.takeWhile (· ≠ ','), (cs.dropWhile (· ≠ ',')).tail?)

def readInt (token : List Char) : Except FileFault Int32 :=
  match stoi token with
  | some z => .ok (Int32.ofInt z)
  | none => .error .invalidArgument

/-- `stof`. -/
def readFloat (token : List Char) : Except FileFault ℚ :=
  match decimal (token.dropWhile isspace) with
  | some x => .ok x
  | none => .error .invalidArgument

/-- One turn of the reader's loop. -/
def readConfig (line : List Char) : Except FileFault TaskConfig := do
  let (token, ss) := getToken [] (some line)
  let nodeId ← readInt token
  let (token, ss) := getToken token ss
  let threadCap ← readInt token
  let (token, ss) := getToken token ss
  let dedupNum ← readInt token
  let (token, ss) := getToken token ss
  let name := String.ofList token
  let (token, ss) := getToken token ss
  let batchSize ← readInt token
  let (token, _) := getToken token ss
  let dutyCycle ← readFloat token
  return { nodeId, dedupNum, threadCap, name, batchSize, dutyCycle }

/-- `ProxyPartitionReader(filename, nGPU)` and `getAllTaskConfig`. -/
def readFile (nGPU : Int32) (text : List Char) : Except FileFault (List TaskConfig) :=
  if 0 < nGPU then (fileLines text).mapM readConfig else .error .assertion

/-! ## What is accepted -/

/-- `addResults` finds nothing wrong. -/
def accepts (nGPU : Int32) (c : TaskConfig) : Bool := !(addResults ⟨[], nGPU⟩ c).1

theorem addResults_eq (w : ProxyPartitionWriter) (c : TaskConfig) :
    addResults w c = if accepts w.numOfGPU c then
      (false, { w with vecConfigs := w.vecConfigs ++ [c] }) else (true, w) := by
  unfold accepts addResults
  dsimp only
  split
  case isTrue => rfl
  case isFalse =>
    split
    case isTrue => rfl
    case isFalse =>
      split
      case isTrue => rfl
      case isFalse => split <;> rfl

theorem accepts_spec {nGPU : Int32} {c : TaskConfig} (h : accepts nGPU c = true) :
    0 < nGPU ∧ 0 ≤ c.dutyCycle := by
  unfold accepts addResults at h
  split_ifs at h with hnode hcap hbatch hduty
  all_goals try cases h
  exact ⟨Int32.lt_of_le_of_lt hnode.1 hnode.2, not_lt.mp hduty⟩

theorem addAll_eq (w : ProxyPartitionWriter) (cs : List TaskConfig) :
    addAll w cs = { w with vecConfigs := w.vecConfigs ++ cs.filter (accepts w.numOfGPU) } := by
  induction cs generalizing w with
  | nil => simp [addAll]
  | cons c cs ih =>
      change addAll (addResults w c).2 cs = _
      rw [addResults_eq]
      by_cases hc : accepts w.numOfGPU c = true
      · rw [if_pos hc, List.filter_cons_of_pos hc, ih, List.append_assoc]
        rfl
      · rw [if_neg hc, List.filter_cons_of_neg hc, ih]

/-! ## Tokens -/

theorem getToken_field {token field rest : List Char} (h : ',' ∉ field) :
    getToken token (some (field ++ ',' :: rest)) = (field, some rest) := by
  have hkeep : ∀ c ∈ field, (decide (c ≠ ',')) = true := fun c hc =>
    decide_eq_true fun heq => h (heq ▸ hc)
  rw [getToken, List.takeWhile_append_of_pos hkeep, List.dropWhile_append_of_pos hkeep]
  simp

theorem getToken_last {token field : List Char} (h : ',' ∉ field) :
    getToken token (some field) = (field, none) := by
  have hkeep : ∀ c ∈ field, (decide (c ≠ ',')) = true := fun c hc =>
    decide_eq_true fun heq => h (heq ▸ hc)
  rw [getToken, List.takeWhile_eq_self_iff.mpr hkeep, List.dropWhile_eq_nil_iff.mpr hkeep]
  rfl

theorem printInt_chars {z : Int} {c : Char} (h : c ∈ printInt z) : c = '-' ∨ c.isDigit = true := by
  cases z with
  | ofNat n => exact Or.inr (isDigit_toDigits h)
  | negSucc n =>
      rcases List.mem_cons.mp h with h | h
      · exact Or.inl h
      · exact Or.inr (isDigit_toDigits h)

/-- Digits after a minus sign, as `stoi` reads them. -/
theorem stoi_minus {n : Nat} (h : n ≤ 2147483648) :
    stoi ('-' :: Nat.toDigits 10 n) = some (-(n : Int)) := by
  have hdigits : ∀ c ∈ Nat.toDigits 10 n, c.isDigit := fun _ => isDigit_toDigits
  have hdrop : ('-' :: Nat.toDigits 10 n).dropWhile isspace = '-' :: Nat.toDigits 10 n := rfl
  have htake := List.takeWhile_eq_self_iff.mpr hdigits
  simp only [stoi, hdrop, List.head?_cons, List.tail_cons, true_or, if_true, htake,
    Nat.ofDigitChars_ten_toDigits]
  exact if_pos ⟨Nat.toDigits_ne_nil, by omega, by omega⟩

/-- An `int` is read back. -/
theorem readInt_printInt (z : Int32) : readInt (printInt z.toInt) = .ok z := by
  have hlt : z.toInt < 2147483648 := z.toInt_lt
  have hle : -2147483648 ≤ z.toInt := z.le_toInt
  have hstoi : stoi (printInt z.toInt) = some z.toInt := by
    cases hz : z.toInt with
    | ofNat n =>
        rw [hz, Int.ofNat_eq_natCast] at hlt
        exact stoi_toDigits (by omega)
    | negSucc n =>
        rw [hz] at hle
        exact stoi_minus (by omega)
  rw [readInt, hstoi]
  simp

theorem isspace_fixed {x : ℚ} (h : 0 ≤ x) : (fixed x).dropWhile isspace = fixed x := by
  have hhead : ∀ c, (fixed x).head? = some c → isspace c = false := by
    intro c hc
    refine not_isspace_of_isDigit ?_
    by_contra hdigit
    rw [fixed, if_neg (not_lt.mpr h), List.nil_append] at hc
    exact head_digits _ (by simpa using hdigit) hc
  cases hcs : fixed x with
  | nil => rfl
  | cons c cs =>
      rw [hcs] at hhead
      exact List.dropWhile_cons_of_neg (by simp [hhead c rfl])

theorem readFloat_fixed {x : ℚ} (h : 0 ≤ x) : readFloat (fixed x) = .ok (sixDecimals x) := by
  rw [readFloat, isspace_fixed h, decimal_fixed h]

/-! ## Lines -/

/-- A name a line can carry: no separator, and nothing that ends a C string. -/
def Plain (name : String) : Prop :=
  ',' ∉ name.toList ∧ '\n' ∉ name.toList ∧ '\x00' ∉ name.toList

theorem printStr_plain {name : String} (h : Plain name) : printStr name = name.toList :=
  List.takeWhile_eq_self_iff.mpr fun _ hc => decide_eq_true fun heq => h.2.2 (heq ▸ hc)

theorem notMem_printInt {z : Int} {c : Char} (hminus : c ≠ '-') (hdigit : c.isDigit = false) :
    c ∉ printInt z := by
  intro h
  rcases printInt_chars h with rfl | h
  · exact hminus rfl
  · rw [hdigit] at h
    cases h

theorem notMem_fixed {x : ℚ} {c : Char} (hminus : c ≠ '-') (hpoint : c ≠ '.')
    (hdigit : c.isDigit = false) : c ∉ fixed x := by
  intro h
  rcases fixed_chars h with rfl | rfl | h
  · exact hminus rfl
  · exact hpoint rfl
  · rw [hdigit] at h
    cases h

/-- A configuration as it is read back. -/
def rounded (c : TaskConfig) : TaskConfig := { c with dutyCycle := sixDecimals c.dutyCycle }

theorem readConfig_printConfig {c : TaskConfig} (hname : Plain c.name) (hduty : 0 ≤ c.dutyCycle) :
    readConfig (printConfig c) = .ok (rounded c) := by
  have hint : ∀ z : Int, ',' ∉ printInt z := fun _ => notMem_printInt (by decide) rfl
  have hfixed : ',' ∉ fixed c.dutyCycle := notMem_fixed (by decide) (by decide) rfl
  simp only [readConfig, printConfig, printStr_plain hname, getToken_field (hint _),
    getToken_field hname.1, getToken_last hfixed, readInt_printInt, readFloat_fixed hduty,
    String.ofList_toList, bind, Except.bind, pure, Except.pure]
  rfl

theorem notMem_printConfig {c : TaskConfig} (hname : Plain c.name) : '\n' ∉ printConfig c := by
  have hint : ∀ z : Int, '\n' ∉ printInt z := fun _ => notMem_printInt (by decide) rfl
  have hfixed : '\n' ∉ fixed c.dutyCycle := notMem_fixed (by decide) (by decide) rfl
  simp [printConfig, printStr_plain hname, hint, hfixed, hname.2.1]

theorem splitOn_lines {lines : List (List Char)} (h : ∀ l ∈ lines, '\n' ∉ l) :
    (lines.flatMap fun l => l ++ ['\n']).splitOn '\n' = lines ++ [[]] := by
  induction lines with
  | nil => rfl
  | cons l lines ih =>
      rw [List.flatMap_cons, List.append_assoc, List.singleton_append,
        List.splitOn_append_cons_of_beq _ _ (beq_self_eq_true _),
        List.splitOn_eq_singleton (h l (List.mem_cons_self ..)),
        ih fun l' hl' => h l' (List.mem_cons_of_mem l hl')]
      rfl

theorem fileLines_lines {lines : List (List Char)} (h : ∀ l ∈ lines, '\n' ∉ l) :
    fileLines (lines.flatMap fun l => l ++ ['\n']) = lines := by
  simp [fileLines, splitOn_lines h]

/-! ## Round trip -/

theorem mapM_readConfig {cs : List TaskConfig}
    (h : ∀ c ∈ cs, readConfig (printConfig c) = .ok (rounded c)) :
    (cs.map printConfig).mapM readConfig = .ok (cs.map rounded) := by
  induction cs with
  | nil => rfl
  | cons c cs ih =>
      rw [List.map_cons, List.mapM_cons, h c (List.mem_cons_self ..),
        ih fun c' hc' => h c' (List.mem_cons_of_mem c hc')]
      rfl

/-- The file holds what `addResults` accepted, in order, with the duty cycles
rounded to six decimals. -/
theorem schedule_round_trip {nGPU : Int32} {cs : List TaskConfig}
    (hnames : ∀ c ∈ cs, Plain c.name) (hsome : ∃ c ∈ cs, accepts nGPU c = true) :
    (writeFile nGPU cs >>= readFile nGPU) = .ok ((cs.filter (accepts nGPU)).map rounded) := by
  obtain ⟨c, hc, hacc⟩ := hsome
  have hpos := (accepts_spec hacc).1
  have hkept : ∀ c' ∈ cs.filter (accepts nGPU), Plain c'.name ∧ 0 ≤ c'.dutyCycle := fun c' hc' =>
    ⟨hnames c' (List.mem_of_mem_filter hc'), (accepts_spec (List.of_mem_filter hc')).2⟩
  have hwrite : writeFile nGPU cs =
      .ok ((cs.filter (accepts nGPU)).flatMap fun c => printConfig c ++ ['\n']) := by
    have hne : cs.filter (accepts nGPU) ≠ [] :=
      List.ne_nil_of_mem (List.mem_filter.mpr ⟨hc, hacc⟩)
    simp only [writeFile, openWriter, if_pos hpos, bind, Except.bind, writeResults, addAll_eq,
      List.nil_append, if_neg hne]
  have hlines : (cs.filter (accepts nGPU)).flatMap (fun c => printConfig c ++ ['\n']) =
      ((cs.filter (accepts nGPU)).map printConfig).flatMap fun l => l ++ ['\n'] := by
    rw [List.flatMap_map]
  have hread : readFile nGPU ((cs.filter (accepts nGPU)).flatMap fun c => printConfig c ++ ['\n']) =
      .ok ((cs.filter (accepts nGPU)).map rounded) := by
    rw [readFile, if_pos hpos, hlines, fileLines_lines]
    · exact mapM_readConfig fun c' hc' =>
        readConfig_printConfig (hkept c' hc').1 (hkept c' hc').2
    · intro l hl
      obtain ⟨c', hc', rfl⟩ := List.mem_map.mp hl
      exact notMem_printConfig (hkept c' hc').1
  rw [hwrite]
  exact hread

/-- Half a GPU for batches of 8, with a name and a duty cycle of its own. -/
def halfConfig (name : String) (dutyCycle : ℚ) : TaskConfig :=
  { nodeId := 0, dedupNum := 1, threadCap := 50, name, batchSize := 8, dutyCycle }

example : rounded (halfConfig "resnet50" (40 + 1 / 3)) = halfConfig "resnet50" 40.333333 := by
  decide +kernel

theorem schedule_round_trip_at :
    (writeFile 1 [halfConfig "resnet50" (40 + 1 / 3), halfConfig "vgg16" (-1)] >>= readFile 1) =
      .ok (([halfConfig "resnet50" (40 + 1 / 3), halfConfig "vgg16" (-1)].filter (accepts 1)).map
        rounded) := by
  refine schedule_round_trip ?_ ⟨_, List.mem_cons_self .., by decide +kernel⟩
  intro c hc
  simp only [List.mem_cons, List.not_mem_nil, or_false] at hc
  rcases hc with rfl | rfl <;> exact ⟨by decide, by decide, by decide⟩

/-- Without an accepted element no file is written, and a name ends at a NUL. -/
theorem schedule_not_read_back :
    (',' ∉ (halfConfig "vgg16" (-1)).name.toList ∧ '\n' ∉ (halfConfig "vgg16" (-1)).name.toList ∧
        (writeFile 1 [halfConfig "vgg16" (-1)] >>= readFile 1) = .error .assertion ∧
        [halfConfig "vgg16" (-1)].filter (accepts 1) = []) ∧
      ',' ∉ (halfConfig "vgg\x0016" 40).name.toList ∧ '\n' ∉ (halfConfig "vgg\x0016" 40).name.toList ∧
      (writeFile 1 [halfConfig "vgg\x0016" 40] >>= readFile 1) = .ok [halfConfig "vgg" 40] ∧
      [halfConfig "vgg\x0016" 40].filter (accepts 1) = [halfConfig "vgg\x0016" 40] := by
  decide +kernel

/-! ## The file of a decision -/

/-- `_IDtoModelName`. -/
def modelName : Model → String
  | .lenet1 => "lenet1"
  | .lenet2 => "lenet2"
  | .lenet3 => "lenet3"
  | .lenet4 => "lenet4"
  | .lenet5 => "lenet5"
  | .lenet6 => "lenet6"
  | .googlenet => "googlenet"
  | .resnet50 => "resnet50"
  | .ssdMobilenetv1 => "ssd-mobilenetv1"
  | .vgg16 => "vgg16"
  | .mnasnet1_0 => "mnasnet1_0"
  | .mobilenet_v2 => "mobilenet_v2"
  | .densenet161 => "densenet161"
  | .bert => "bert"

/-- The configurations of a node: one for each task, or a reserved one. -/
def nodeConfigs (s : Scheduler) (n : Node) : Query (List TaskConfig) :=
  let config := fun name batchSize dutyCycle =>
    { nodeId := Int32.ofNat n.id, dedupNum := Int32.ofInt n.dedupNum
      threadCap := Int32.ofInt n.resourcePntg, name, batchSize := Int32.ofInt batchSize, dutyCycle }
  if n.vTaskList = [] then .ok [config "reserved" maxBatch 0]
  else n.vTaskList.mapM fun t => do
    let name ← getModelName t.id
    return config (modelName name) t.batchSize (s.dutyOf n)

/-- `writeSchedulingResults`: the number of GPUs and what is passed to
`addResults`. -/
def schedulingResults (s : Scheduler) (sim : SimState) : Query (Int32 × List TaskConfig) := do
  let configs ← sim.nodes.mapM (nodeConfigs s)
  return (Int32.ofNat sim.vGPUList.length, configs.flatten)

theorem modelName_plain (name : Model) : Plain (modelName name) := by
  cases name <;> exact ⟨by decide, by decide, by decide⟩

theorem mem_mapM {α β : Type} {f : α → Query β} {as : List α} {bs : List β} {b : β}
    (h : as.mapM f = .ok bs) (hb : b ∈ bs) : ∃ a ∈ as, f a = .ok b := by
  induction as generalizing bs with
  | nil =>
      obtain rfl := Query.pure_ok.mp h
      cases hb
  | cons a as ih =>
      rw [List.mapM_cons] at h
      obtain ⟨b', hb', h⟩ := Query.bind_ok.mp h
      obtain ⟨bs', hbs', h⟩ := Query.bind_ok.mp h
      obtain rfl := Query.pure_ok.mp h
      rcases List.mem_cons.mp hb with rfl | hb
      · exact ⟨a, List.mem_cons_self .., hb'⟩
      · obtain ⟨a', ha', hfa'⟩ := ih hbs' hb
        exact ⟨a', List.mem_cons_of_mem a ha', hfa'⟩

/-- No name in the file of a decision has a separator in it. -/
theorem schedulingResults_plain {s : Scheduler} {sim : SimState} {n : Int32}
    {cs : List TaskConfig} (h : schedulingResults s sim = .ok (n, cs)) :
    ∀ c ∈ cs, Plain c.name := by
  intro c hc
  obtain ⟨configs, hconfigs, h⟩ := Query.bind_ok.mp h
  obtain ⟨-, rfl⟩ := Prod.mk.inj (Query.pure_ok.mp h)
  obtain ⟨l, hl, hc⟩ := List.mem_flatten.mp hc
  obtain ⟨node, -, hnode⟩ := mem_mapM hconfigs hl
  unfold nodeConfigs at hnode
  split at hnode
  case isTrue =>
    obtain rfl := Except.ok.inj hnode
    obtain rfl := List.mem_singleton.mp hc
    have hreserved : Plain "reserved" := ⟨by decide, by decide, by decide⟩
    exact hreserved
  case isFalse =>
    obtain ⟨t, -, ht⟩ := mem_mapM hnode hc
    obtain ⟨name, -, ht⟩ := Query.bind_ok.mp ht
    obtain rfl := Query.pure_ok.mp ht
    exact modelName_plain name

end Glet.ScheduleFile
