import OcpFw.AsyncPrograms
import OcpFw.PhysicalBlocks

/-! The table of bad blocks each die stores in one of its blocks: `ReadBadBlockTable`,
`FindBadBlock`, `SaveBadBlockTable`, `RecoverBadBlockTable` and
`UpdateBadBlockTableForGrownBadBlock`, as programs over the memory, the queues of the ways
and the flash. What the scheduler completes between two statements is a step of a die. -/
namespace OcpFw
open AsyncPrograms (Prog)

def bytesPerDataRegionOfPage : Nat := 16384

def bytesPerSpareRegionOfPage : Nat := 256

def bytesPerNandRow : Nat := 16384 + 1664

def startPageNoOfBadBlockTableBlock : Nat := 1

def plsbPage2VpageTranslation (pageNo : Nat) : Nat := if pageNo > 0 then (pageNo + 1) / 2 else 0

def vpage2PlsbPageTranslation (pageNo : Nat) : Nat := if pageNo > 0 then 2 * pageNo - 1 else 0

def badBlockMarkPage0 : Nat := 0

def badBlockMarkPage1 : Nat := pagesPerMlcBlock - 1

def badBlockMarkByte0 : Nat := 0

def badBlockMarkByte1 : Nat := 16384

def cleanDataInByte : UInt8 := 0xff

/-- `BLOCK_STATE_NORMAL` and `BLOCK_STATE_BAD`. -/
def blockState (bad : Bool) : UInt8 := if bad then 1 else 0

/-- A byte stored in the flag of `PHY_BLOCK_ENTRY`, which has one bit. -/
def badFlag (byte : UInt8) : Bool := byte.toNat % 2 == 1

/-- `DIE_STATE_BAD_BLOCK_TABLE_*`. -/
inductive DieTable where
  | notExist
  | exist
  | hold
  | update
  deriving DecidableEq

/-- The size of the tables and where they are. `bbtPhyBlock` is the field `phyBlock` of the
`bbtInfo` entries, and `encode` what the controller makes of a page it programs. -/
structure TableConfig where
  geometry : Geometry
  totalBlocksPerLun : Nat
  lunsPerDie : Nat
  reservedDataBufferBaseAddr : Nat
  bbtPhyBlock : Nat → Nat
  encode : (Nat → UInt8) → (Nat → UInt8) → Nat → UInt8
  blocks_pos : 0 < totalBlocksPerLun * lunsPerDie
  bbt_lt : ∀ dieNo, bbtPhyBlock dieNo < totalBlocksPerLun * lunsPerDie

namespace TableConfig

variable (c : TableConfig)

def totalBlocksPerDie : Nat := c.totalBlocksPerLun * c.lunsPerDie

def usedPagesForBadBlockTablePerDie : Nat := c.totalBlocksPerDie / bytesPerDataRegionOfPage + 1

def dataSizeOfBadBlockTablePerDie : Nat := c.totalBlocksPerDie

def tempBbtBufEntrySize : Nat := bytesPerDataRegionOfPage + bytesPerSpareRegionOfPage

def tempReadBufEntrySize : Nat := bytesPerNandRow

def tempBbtBufAddr (dieNo : Nat) : Nat :=
  c.reservedDataBufferBaseAddr + dieNo * c.usedPagesForBadBlockTablePerDie * tempBbtBufEntrySize

def tempReadBufBaseAddr : Nat :=
  c.reservedDataBufferBaseAddr + c.geometry.userDies * c.usedPagesForBadBlockTablePerDie * tempBbtBufEntrySize

def tempReadBufAddr (dieNo : Nat) : Nat := c.tempReadBufBaseAddr + dieNo * tempReadBufEntrySize

end TableConfig

/-! ### Requests -/

inductive TableReqCode where
  | read
  | write
  | erase
  deriving DecidableEq

/-- The fields of a request the functions below fill in. All of them address physical blocks
of the total block space, without a dependency check. -/
structure TableReq where
  reqCode : TableReqCode
  nandEcc : Bool := true
  dataBufAddr : Option Nat
  physicalCh : Nat
  physicalWay : Nat
  physicalBlock : Nat
  physicalPage : Nat

/-- A page: how often it was programmed since the last erase, its two regions as the
controller decodes them, and its row as it is. -/
structure TablePage where
  programs : Nat
  data : Nat → UInt8
  spare : Nat → UInt8
  row : Nat → UInt8

def TablePage.erased : TablePage where
  programs := 0
  data _ := cleanDataInByte
  spare _ := cleanDataInByte
  row _ := cleanDataInByte

/-- The variables of the functions, what they share with the scheduler, and the flash.
`issued` keeps all requests that were ever put in a queue. -/
structure TableState where
  mem : Nat → UInt8
  bad : Nat → Nat → Bool
  grownBadUpdate : Nat → Bool
  nandReqQ : Nat → List TableReq
  issued : Nat → List TableReq
  flash : Nat → Nat → Nat → TablePage
  dieState : Nat → DieTable
  blockChecker : Nat → Bool
  bbtMaker : Bool
  readLoop : Nat
  saveLoop : Nat

/-- The bytes a transfer overwrites. -/
def storeBytes (mem : Nat → UInt8) (addr size : Nat) (bytes : Nat → UInt8) : Nat → UInt8 :=
  fun a => if addr ≤ a ∧ a < addr + size then bytes (a - addr) else mem a

variable (c : TableConfig)

/-- The queue of a way, by the number of its die. -/
def TableState.selectLowLevelReqQ (s : TableState) (req : TableReq) : TableState :=
  let dieNo := pcw2VdieTranslation c.geometry req.physicalCh req.physicalWay
  { s with
    nandReqQ := Function.update s.nandReqQ dieNo (s.nandReqQ dieNo ++ [req])
    issued := Function.update s.issued dieNo (s.issued dieNo ++ [req]) }

namespace TableReq

def generateDataBufAddr (req : TableReq) : Nat := req.dataBufAddr.getD c.reservedDataBufferBaseAddr

def generateSpareDataBufAddr (req : TableReq) : Nat :=
  req.generateDataBufAddr c + bytesPerDataRegionOfSlice

def generateNandRowAddr (req : TableReq) : Nat :=
  lunBaseAddr (req.physicalBlock / c.totalBlocksPerLun) +
    req.physicalBlock % c.totalBlocksPerLun * pagesPerMlcBlock + req.physicalPage

end TableReq

/-! ### The dies -/

/-- The scheduler completes the first request of a way. -/
def TableState.complete (s : TableState) (dieNo : Nat) (req : TableReq) (rest : List TableReq) : TableState :=
  let s := { s with nandReqQ := Function.update s.nandReqQ dieNo rest }
  let page := s.flash dieNo req.physicalBlock req.physicalPage
  let addr := req.generateDataBufAddr c
  match req.reqCode with
  | .read =>
    if req.nandEcc then
      { s with
        mem := storeBytes (storeBytes s.mem addr bytesPerDataRegionOfPage page.data)
          (req.generateSpareDataBufAddr c) bytesPerSpareRegionOfPage page.spare }
    else { s with mem := storeBytes s.mem addr bytesPerNandRow page.row }
  | .write =>
    let data := fun i => s.mem (addr + i)
    let spare := fun i => s.mem (req.generateSpareDataBufAddr c + i)
    let page := { programs := page.programs + 1, data, spare, row := c.encode data spare }
    { s with
      flash := Function.update s.flash dieNo (Function.update (s.flash dieNo) req.physicalBlock
        (Function.update (s.flash dieNo req.physicalBlock) req.physicalPage page)) }
  | .erase =>
    { s with
      flash := Function.update s.flash dieNo (Function.update (s.flash dieNo) req.physicalBlock
        fun _ => .erased) }

/-- It gives up a raw read: something was transferred, the first byte is marked, and the
block counts as a grown bad one. -/
def TableState.fail (s : TableState) (dieNo : Nat) (req : TableReq) (rest : List TableReq)
    (garbage : Nat → UInt8) : TableState :=
  let rowAddr := req.generateNandRowAddr c
  let phyBlockNo := rowAddr % lun1BaseAddr / pagesPerMlcBlock + rowAddr / lun1BaseAddr * c.totalBlocksPerLun
  let mem := storeBytes s.mem (req.generateDataBufAddr c) bytesPerNandRow garbage
  { s with
    nandReqQ := Function.update s.nandReqQ dieNo rest
    mem := match req.dataBufAddr with
      | some addr => Function.update mem addr (UInt8.ofNat pseudoBadBlockMark)
      | none => mem
    bad := Function.update s.bad dieNo (Function.update (s.bad dieNo) phyBlockNo true)
    grownBadUpdate := Function.update s.grownBadUpdate dieNo true }

/-- The requests of a pattern of failing raw reads. -/
def TableReq.Fails (rawReadFails : Nat → Nat → Nat → Bool) (dieNo : Nat) (req : TableReq) : Prop :=
  req.reqCode = .read ∧ req.nandEcc = false ∧ rawReadFails dieNo req.physicalBlock req.physicalPage = true

/-- One die completes its first request. -/
inductive TableDieStep (rawReadFails : Nat → Nat → Nat → Bool) (dieNo : Nat) : TableState → TableState → Prop where
  | complete (first : s.nandReqQ dieNo = req :: rest) (fine : ¬ req.Fails rawReadFails dieNo) :
      TableDieStep rawReadFails dieNo s (s.complete c dieNo req rest)
  | fail (first : s.nandReqQ dieNo = req :: rest) (fails : req.Fails rawReadFails dieNo)
      (garbage : Nat → UInt8) : TableDieStep rawReadFails dieNo s (s.fail c dieNo req rest garbage)

/-- `SyncAllLowLevelReqDone` returns when the queue of every way is empty. -/
def TableState.Quiet (dieNo : Nat) (s : TableState) : Prop := s.nandReqQ dieNo = []

/-- The runs of a program on all dies. -/
abbrev TableRuns (rawReadFails : Nat → Nat → Nat → Bool) : Prog TableState → TableState → TableState → Prop :=
  AsyncPrograms.Runs (AsyncPrograms.StepOfAny (TableDieStep c rawReadFails) c.geometry.userDies)
    (AsyncPrograms.Each c.geometry.userDies TableState.Quiet)

/-! ### The functions -/

/-- A statement for every die. -/
def forDies (body : Nat → TableState → TableState) : Prog TableState :=
  .forRange (fun dieNo => .act (body dieNo)) c.geometry.userDies

/-- The loop body of `ReadBadBlockTable`. -/
def readTablePage (tempPage loop dieNo : Nat) (s : TableState) : TableState :=
  s.selectLowLevelReqQ c {
    reqCode := .read
    dataBufAddr := some (c.tempBbtBufAddr dieNo + loop * TableConfig.tempBbtBufEntrySize)
    physicalCh := vdie2PchTranslation c.geometry dieNo
    physicalWay := vdie2PwayTranslation c.geometry dieNo
    physicalBlock := c.bbtPhyBlock dieNo
    physicalPage := vpage2PlsbPageTranslation tempPage }

def readTablePages (dataSize : Int) (tempPage loop : Nat) : Prog TableState :=
  if 0 < dataSize then
    .seq (forDies c (readTablePage c tempPage loop))
      (readTablePages (dataSize - bytesPerDataRegionOfPage) (tempPage + 1) (loop + 1))
  else .act fun s => { s with readLoop := loop }
termination_by dataSize.toNat
decreasing_by
  unfold bytesPerDataRegionOfPage
  omega

def readBadBlockTable : Prog TableState :=
  .seq (readTablePages c c.dataSizeOfBadBlockTablePerDie
    (plsbPage2VpageTranslation startPageNoOfBadBlockTableBlock) 0) .sync

/-- A raw read of a page with a mark, into the buffer of the die. -/
def readMarkPage (phyBlockNo pageNo dieNo : Nat) (s : TableState) : TableState :=
  s.selectLowLevelReqQ c {
    reqCode := .read
    nandEcc := false
    dataBufAddr := some (c.tempReadBufAddr dieNo)
    physicalCh := vdie2PchTranslation c.geometry dieNo
    physicalWay := vdie2PwayTranslation c.geometry dieNo
    physicalBlock := phyBlockNo
    physicalPage := pageNo }

/-- The two bytes in the buffer of a die. -/
def marksClean (dieNo : Nat) (s : TableState) : Bool :=
  s.mem (c.tempReadBufAddr dieNo + badBlockMarkByte0) == cleanDataInByte &&
    s.mem (c.tempReadBufAddr dieNo + badBlockMarkByte1) == cleanDataInByte

/-- The first loop of `FindBadBlock` over the dies. -/
def checkFirstPage (phyBlockNo dieNo : Nat) (s : TableState) : TableState :=
  if s.dieState dieNo = .notExist then
    readMarkPage c phyBlockNo badBlockMarkPage0 dieNo
      { s with blockChecker := Function.update s.blockChecker dieNo false }
  else s

/-- The second one. -/
def checkLastPage (phyBlockNo dieNo : Nat) (s : TableState) : TableState :=
  if s.dieState dieNo = .notExist then
    if marksClean c dieNo s then readMarkPage c phyBlockNo badBlockMarkPage1 dieNo s
    else { s with blockChecker := Function.update s.blockChecker dieNo true }
  else s

/-- The third one. -/
def updateBlockState (phyBlockNo dieNo : Nat) (s : TableState) : TableState :=
  if s.dieState dieNo = .notExist then
    let s :=
      if !marksClean c dieNo s then
        if s.blockChecker dieNo = false then
          { s with blockChecker := Function.update s.blockChecker dieNo true }
        else s
      else s
    { s with
      mem := Function.update s.mem (c.tempBbtBufAddr dieNo + phyBlockNo) (blockState (s.blockChecker dieNo))
      bad := Function.update s.bad dieNo (Function.update (s.bad dieNo) phyBlockNo (s.blockChecker dieNo)) }
  else s

def findBadBlock : Prog TableState :=
  .forRange (fun phyBlockNo =>
    .seq (.seq (.seq (.seq (forDies c (checkFirstPage c phyBlockNo)) .sync)
      (forDies c (checkLastPage c phyBlockNo))) .sync)
      (forDies c (updateBlockState c phyBlockNo))) c.totalBlocksPerDie

/-- The loop body of `SaveBadBlockTable`: a die's block is erased before its first page. -/
def saveTablePage (tempPage loop dieNo : Nat) (s : TableState) : TableState :=
  if s.dieState dieNo = .notExist ∨ s.dieState dieNo = .update then
    let s :=
      if loop = 0 then
        s.selectLowLevelReqQ c {
          reqCode := .erase
          dataBufAddr := none
          physicalCh := vdie2PchTranslation c.geometry dieNo
          physicalWay := vdie2PwayTranslation c.geometry dieNo
          physicalBlock := c.bbtPhyBlock dieNo
          physicalPage := 0 }
      else s
    s.selectLowLevelReqQ c {
      reqCode := .write
      dataBufAddr := some (c.tempBbtBufAddr dieNo + loop * TableConfig.tempBbtBufEntrySize)
      physicalCh := vdie2PchTranslation c.geometry dieNo
      physicalWay := vdie2PwayTranslation c.geometry dieNo
      physicalBlock := c.bbtPhyBlock dieNo
      physicalPage := vpage2PlsbPageTranslation tempPage }
  else s

/-- `tempPage` stays, and `dataSize` is counted up by one on the way down. -/
def saveTablePages (dataSize : Int) (tempPage loop : Nat) : Prog TableState :=
  if 0 < dataSize then
    .seq (forDies c (saveTablePage c tempPage loop))
      (saveTablePages (dataSize + 1 - bytesPerDataRegionOfPage) tempPage (loop + 1))
  else .act fun s => { s with saveLoop := loop }
termination_by dataSize.toNat
decreasing_by
  unfold bytesPerDataRegionOfPage
  omega

def saveBadBlockTable : Prog TableState :=
  .seq (saveTablePages c c.dataSizeOfBadBlockTablePerDie
    (plsbPage2VpageTranslation startPageNoOfBadBlockTableBlock) 0) .sync

/-- The loop of `RecoverBadBlockTable` over the tables that were read. -/
def checkTable (dieNo : Nat) (s : TableState) : TableState :=
  let checker := s.mem (c.tempBbtBufAddr dieNo)
  if checker = blockState false ∨ checker = blockState true then
    { s with
      dieState := Function.update s.dieState dieNo .exist
      bad := Function.update s.bad dieNo fun phyBlockNo =>
        if phyBlockNo < c.totalBlocksPerDie then badFlag (s.mem (c.tempBbtBufAddr dieNo + phyBlockNo))
        else s.bad dieNo phyBlockNo }
  else
    { s with
      dieState := Function.update s.dieState dieNo .notExist
      bbtMaker := true }

def recoverBadBlockTable : Prog TableState :=
  .seq (.seq (.seq (.seq (readBadBlockTable c)
    (.act fun s => { s with bbtMaker := false }))
    (forDies c (checkTable c)))
    (.ite (fun s => s.bbtMaker) (.seq (findBadBlock c) (saveBadBlockTable c)) .skip))
    (forDies c fun dieNo s => { s with grownBadUpdate := Function.update s.grownBadUpdate dieNo false })

/-- The loop of `UpdateBadBlockTableForGrownBadBlock`. The block of the table is not marked
in it. -/
def makeTable (dieNo : Nat) (s : TableState) : TableState :=
  if s.grownBadUpdate dieNo then
    { s with
      mem := storeBytes s.mem (c.tempBbtBufAddr dieNo) c.totalBlocksPerDie fun phyBlockNo =>
        if phyBlockNo ≠ c.bbtPhyBlock dieNo then blockState (s.bad dieNo phyBlockNo) else blockState false
      dieState := Function.update s.dieState dieNo .update }
  else { s with dieState := Function.update s.dieState dieNo .hold }

def updateBadBlockTableForGrownBadBlock : Prog TableState :=
  .seq (forDies c (makeTable c)) (saveBadBlockTable c)

end OcpFw
