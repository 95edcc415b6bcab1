import ServerUnit.Server.State

/-!
# Status packets (`packet_processor/process_status_packet.cpp`)
-/

namespace ServerUnit

open Lib

/-! ### The tokenizer -/

/-- `std::isspace` on a character of the C locale. -/
def isSpace (c : Char) : Bool := c.toNat == 32 || (9 ≤ c.toNat && c.toNat ≤ 13)

/-- The value of a string of decimal digits. -/
def digitsValue (digits : List Char) : ℕ := digits.foldl (fun n c => 10 * n + (c.toNat - 48)) 0

/-- `std::stoi`: white space, a sign and digits; what follows is ignored. Throws without a digit
and on a value that is no `int`. -/
def stoi (word : List Char) : Outcome ℤ :=
  let word := word.dropWhile isSpace
  let (negative, word) := match word with
    | '-' :: rest => (true, rest)
    | '+' :: rest => (false, rest)
    | rest        => (false, rest)
  let digits := word.takeWhile Char.isDigit
  let value : ℤ := digitsValue digits
  let value := if negative then -value else value
  if digits = [] then .error .exception
  else if -2 ^ 31 ≤ value ∧ value < 2 ^ 31 then .ok value
  else .error .exception

/-- The words between delimiters, the empty one after a final delimiter included: `getline` only
meets the end of the string in the last of them. -/
def adv_tokenizer (s : String) (del : Char) : Outcome (List ℤ) :=
  (s.toList.splitOn del).mapM stoi

/-- One word more than there are delimiters. -/
lemma length_splitOn {α : Type*} [BEq α] (del : α) (l : List α) :
    (l.splitOn del).length = l.count del + 1 := by
  induction l with
  | nil => rfl
  | cons c l ih =>
    rw [List.splitOn_cons_eq_if_modifyHead, List.count_cons]
    split_ifs with h
    · rw [List.length_cons, ih]
    · rw [List.length_modifyHead, ih, Nat.add_zero]

/-- The words are read one by one. -/
lemma adv_tokenizer_eq_ok {s : String} {del : Char} {counts : List ℤ} :
    adv_tokenizer s del = .ok counts ↔
      List.Forall₂ (fun word count => stoi word = .ok count) (s.toList.splitOn del) counts :=
  Outcome.mapM_eq_ok

lemma length_of_adv_tokenizer {s : String} {del : Char} {counts : List ℤ}
    (h : adv_tokenizer s del = .ok counts) : counts.length = s.toList.count del + 1 := by
  rw [← length_splitOn, (adv_tokenizer_eq_ok.mp h).length_eq]

/-! ### The packet -/

structure ProcessStatusPacket where
  statusCode : BitVec 32
  tableId : String
  errorString : String
  workerUid : String
  statsPresent : Bool
  queueTime : ℚ
  vectorString : String
  threadCount : BitVec 32
  deriving DecidableEq

/-- `packetStatsSchema`. -/
def validStats : Json → Bool
  | .obj fields =>
    (Json.member fields "avgQueueTime").number?.isSome &&
    (Json.member fields "taskQueue").string?.isSome &&
    (Json.member fields "totalAvailableThreads").number?.isSome
  | _ => false

/-- Reading an id and error text out of the body: the first that is missing ends the reading, and
the members keep what was read before. -/
def readBody (packet : Json) : String × String :=
  match (do (← packet.index "body").index "id" : Outcome Json) >>= Json.toStr with
  | .error _ => ("", "")
  | .ok tableId =>
    match (do (← packet.index "body").index "data" : Outcome Json) >>= Json.toStr with
    | .error _ => (tableId, "")
    | .ok errorString => (tableId, errorString)

/-- The constructor. Without a string id it leaves the status code without a value, and using
that is undefined. -/
def ProcessStatusPacket.ofJson (packet : Json) : Outcome ProcessStatusPacket :=
  match packet with
  | .obj fields =>
    if (Json.member fields "id").string?.isSome then do
      let (tableId, errorString) := readBody packet
      let workerUid ← (← packet.index "id").toStr
      let statusCode ← (← packet.index "head").toInt
      let stats ← packet.index "stats"
      if validStats stats then do
        let queueTime ← (← stats.index "avgQueueTime").toDouble
        let vectorString ← (← stats.index "taskQueue").toStr
        let threadCount ← (← stats.index "totalAvailableThreads").toInt
        return { statusCode, tableId, errorString, workerUid, statsPresent := true,
                 queueTime, vectorString, threadCount }
      else
        return { statusCode, tableId, errorString, workerUid, statsPresent := false,
                 queueTime := 0, vectorString := "", threadCount := 0 }
    else .error .undefined
  | _ => .error .undefined

namespace Server

/-- The tracker hears of a table only if it is a template. -/
def noteTemplate (s : Server) (w : Worker) (tableId : String) : Outcome Server := do
  if ← s.templateRegistry.isMatchingFound tableId then
    s.updateTracking w.workerUID tableId
  else
    return s

/-- A result: the status is updated and the worker is sent the acknowledgement. -/
def noteResult (s : Server) (worker : WorkerRef) (p : ProcessStatusPacket)
    (status : UserTaskStatus) (code : ServerPacketCodes) : Outcome Server := do
  let s ← s.updateTaskStatus p.tableId status
  match ← s.outgoingDataRegistry.getRegistryFromId p.tableId with
  | none => return s
  | some outDataState => do
    let (s, _) ← s.queuePacket worker
      (.new (PacketConstructor.create code p.workerUid) (some outDataState) false)
    return s

/-- The switch of `packetStatusParse`. -/
def switchStatus (s : Server) (worker : WorkerRef) (statusCode : BitVec 32)
    (p : ProcessStatusPacket) : Outcome Server := do
  let w ← s.workerRegistry.workers.deref worker
  if statusCode = P_RESET then
    s.noteTemplate w p.tableId
  else if statusCode = P_DATA_ACK then do
    let (s, found) ← s.matchAckablePacket worker p.tableId
    if found then s.noteTemplate w p.tableId else return s
  else if statusCode = P_INTR_RES then
    s.noteResult worker p .dataInter .spIntrAck
  else if statusCode = P_FINAL_RES then
    s.noteResult worker p .dataFinal .spFresAck
  else if statusCode = P_ERR then
    if !p.errorString.isEmpty then s.updateTaskStatus p.tableId .dataError else return s
  else
    return s

/-- The statistics that came with a packet. -/
def storeStats (s : Server) (worker : WorkerRef) (p : ProcessStatusPacket) : Outcome Server :=
  if p.statsPresent then do
    let taskQueue ← adv_tokenizer p.vectorString ','
    let w ← s.workerRegistry.workers.deref worker
    return s.putWorker worker { w with workerStats := ⟨p.threadCount.toInt, taskQueue, p.queueTime⟩ }
  else
    return s

/-- Nothing happens, or the worker's statistics are stored. -/
lemma storeStats_cases {s s' : Server} {worker : WorkerRef} {p : ProcessStatusPacket}
    (h : s.storeStats worker p = .ok s') :
    s' = s ∨ ∃ w workerStats, s.getWorker worker = some w ∧
      s' = s.putWorker worker { w with workerStats } := by
  unfold storeStats at h
  split_ifs at h
  · simp only [Outcome.bind_eq_ok, Heap.deref_eq_ok, Outcome.pure_eq_ok] at h
    obtain ⟨_, -, w, hw, rfl⟩ := h
    exact .inr ⟨w, _, hw, rfl⟩
  · exact .inl (Outcome.pure_eq_ok.mp h).symm

/-- The statistics that are stored. -/
lemma storeStats_eq_ok {s s' : Server} {worker : WorkerRef} {p : ProcessStatusPacket}
    (hstats : p.statsPresent = true) : s.storeStats worker p = .ok s' ↔
      ∃ taskQueue w, adv_tokenizer p.vectorString ',' = .ok taskQueue ∧
        s.getWorker worker = some w ∧
        s.putWorker worker
          { w with workerStats := ⟨p.threadCount.toInt, taskQueue, p.queueTime⟩ } = s' := by
  simp [storeStats, hstats, getWorker]

/-- The bit of quick send mode taken out of a status code. -/
def maskQuickSend (statusCode : BitVec 32) : BitVec 32 :=
  if P_QSEND &&& statusCode ≠ 0 then statusCode &&& ~~~P_QSEND else statusCode

def packetStatusParse (s : Server) (p : ProcessStatusPacket) : Outcome Server := do
  let statusCode := maskQuickSend p.statusCode
  match ← s.workerRegistry.getWorkerFromUid p.workerUid with
  | none => return s
  | some worker => do
    let s ← s.switchStatus worker statusCode p
    s.storeStats worker p

/-- An unknown worker's packet is dropped; for a known one the switch and the statistics follow. -/
lemma packetStatusParse_cases {s s' : Server} {p : ProcessStatusPacket}
    (h : s.packetStatusParse p = .ok s') :
    (s.workerRegistry.getWorkerFromUid p.workerUid = .ok none ∧ s' = s) ∨
    ∃ worker t, s.workerRegistry.getWorkerFromUid p.workerUid = .ok (some worker) ∧
      s.switchStatus worker (maskQuickSend p.statusCode) p = .ok t ∧
      t.storeStats worker p = .ok s' := by
  simp only [packetStatusParse, Outcome.bind_eq_ok] at h
  obtain ⟨found, hfound, h⟩ := h
  cases found with
  | none => exact .inl ⟨hfound, (Outcome.pure_eq_ok.mp h).symm⟩
  | some worker =>
    simp only [Outcome.bind_eq_ok] at h
    obtain ⟨t, ht, h⟩ := h
    exact .inr ⟨worker, t, hfound, ht, h⟩

end Server

end ServerUnit
