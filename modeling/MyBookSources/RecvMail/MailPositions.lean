import MyBookSources.RecvMail.Pop3Socket

/-! # Message numbers as positions

The server numbers its mails, and `getMailID` hands its numbers out. `getHeader` and the getters
take a number for a position of `_MailList`, counted from one.
-/

namespace MyBookSources.RecvMail.Pop3Socket

open Polling (Poll)

/-! ## The numbers of a list -/

def listedNumber (line : Bytes) : Option Int :=
  if line.headD 0 = 43 then none
  else
    match splitString line (ascii " ") with
    | [id, _] => some (atoi id)
    | _ => none

def listedNumbers (response : Bytes) : List Int :=
  (splitString response (ascii "\r\n")).filterMap listedNumber

/-- The number stands at the position that it names. -/
def AtOwnPlace (numbers : List Int) (number : Int) : Prop :=
  0 < number ∧ numbers[(number - 1).toNat]? = some number

instance (numbers : List Int) (number : Int) : Decidable (AtOwnPlace numbers number) :=
  inferInstanceAs (Decidable (_ ∧ _))

/-- Each number that `getMailID` can return stands at its own place. -/
def InPlace (numbers : List Int) : Prop :=
  ∀ number ∈ numbers.take (int32 numbers.length).toNat, AtOwnPlace numbers number

theorem ids_listLoop (lines : List Bytes) (mailList : List MailItem) :
    (listLoop lines mailList).map MailItem.id =
      mailList.map MailItem.id ++ lines.filterMap listedNumber := by
  induction lines generalizing mailList with
  | nil => simp [listLoop]
  | cons strItem rest induction =>
      rw [listLoop, List.filterMap_cons, listedNumber]
      split
      · exact induction mailList
      · match splitString strItem (ascii " ") with
        | [id, size] =>
            dsimp only
            rw [induction, List.map_append, List.append_assoc]
            rfl
        | [] => exact induction mailList
        | [_] => exact induction mailList
        | _ :: _ :: _ :: _ => exact induction mailList

/-- Different numbers are in place exactly if they count from one. -/
theorem inPlace_iff_of_nodup {numbers : List Int} (nodup : numbers.Nodup)
    (small : numbers.length < 2 ^ 31) :
    InPlace numbers ↔
      ∀ index, index < numbers.length → numbers[index]? = some (index + 1 : Int) := by
  have whole : numbers.take (int32 numbers.length).toNat = numbers := by
    rw [int32_of_lt small, Int.toNat_natCast, List.take_length]
  rw [InPlace, whole]
  constructor
  · intro inPlace index inside
    have own := inPlace _ (List.getElem_mem inside)
    rcases own with ⟨positive, found⟩
    have same := found.trans (List.getElem?_eq_getElem inside).symm
    have place := (List.getElem?_inj (List.getElem?_eq_some_iff.mp found).1 nodup).mp same
    rw [List.getElem?_eq_getElem inside]
    congr 1
    omega
  · intro counted number member
    rcases List.getElem_of_mem member with ⟨index, inside, rfl⟩
    have own := counted index inside
    have value : numbers[index] = (index + 1 : Int) := by
      rwa [List.getElem?_eq_getElem inside, Option.some.injEq] at own
    rw [value]
    refine ⟨by omega, ?_⟩
    rwa [Int.add_sub_cancel, Int.toNat_natCast]

/-! ## The uses of the list -/

theorem getList_listed {peer : Peer} {polls : Nat} {before listed : Pop3Socket}
    (list : getList peer polls before = (some true, listed)) :
    listed.hSocket ≠ INVALID_SOCKET ∧
      listed.mailList.map MailItem.id = listedNumbers listed.strRecv := by
  rw [getList] at list
  split at list
  · cases list
  · next opened =>
      have keeps := request_keeps peer polls true { before with strSend := ascii "LIST\r\n" }
      rw [andThen] at list
      split at list
      · next after answered =>
          rw [answered] at keeps
          rw [andThen, verified] at list
          split at list
          · next last accepted =>
              rw [Prod.mk.injEq] at accepted
              rcases accepted with ⟨_, rfl⟩
              cases list
              refine ⟨?_, ids_listLoop _ []⟩
              exact fun closed => opened ((keeps.hSocket rfl).symm.trans closed)
          · cases list
          · cases list
      · cases list
      · cases list

/-- From one socket to the other the list is used at the position in front of `index` only, and
its numbers stay. -/
structure Uses (index : Int) (before after : Pop3Socket) : Prop where
  ids : after.mailList.map MailItem.id = before.mailList.map MailItem.id
  accesses : ∃ count, after.accesses = before.accesses ++ List.replicate count (index - 1)

theorem Uses.refl (index : Int) (pop3 : Pop3Socket) : Uses index pop3 pop3 :=
  ⟨rfl, 0, (List.append_nil _).symm⟩

theorem Uses.trans {index : Int} {first second third : Pop3Socket}
    (left : Uses index first second) (right : Uses index second third) :
    Uses index first third := by
  rcases left with ⟨leftIds, leftCount, leftAccesses⟩
  rcases right with ⟨rightIds, rightCount, rightAccesses⟩
  refine ⟨rightIds.trans leftIds, leftCount + rightCount, ?_⟩
  rw [rightAccesses, leftAccesses, List.append_assoc, List.replicate_append_replicate]

theorem Keeps.uses {before : Pop3Socket} {result : Result} (keeps : Keeps before result)
    (index : Int) : Uses index before result.2 :=
  ⟨by rw [keeps.mailList], 0, by rw [keeps.accesses]; exact (List.append_nil _).symm⟩

theorem uses_assign {index : Int} {set : MailItem → MailItem}
    (same : ∀ item, (set item).id = item.id) (pop3 : Pop3Socket) :
    Uses index pop3 (pop3.assign index set) := by
  refine ⟨?_, 1, rfl⟩
  rw [assign]
  dsimp only
  split
  · apply List.ext_getElem?
    intro place
    rw [List.getElem?_map, List.getElem?_map, List.getElem?_modify]
    cases pop3.mailList[place]? with
    | none => rfl
    | some item =>
        apply congrArg some
        dsimp only
        split
        · exact same item
        · rfl
  · rfl

theorem uses_setTag {index : Int} {set : Bytes → Pop3Socket → Pop3Socket}
    (uses : ∀ value pop3, Uses index pop3 (set value pop3)) (mapString : List (Bytes × Bytes))
    (tag : Bytes) (pop3 : Pop3Socket) : Uses index pop3 (setTag mapString tag set pop3) := by
  rw [setTag]
  split
  · exact uses _ pop3
  · exact .refl index pop3

theorem uses_setDate (timeItem : TimeItem) (index : Int) (value : Bytes) (pop3 : Pop3Socket) :
    Uses index pop3 (setDate timeItem index value pop3) := by
  rw [setDate]
  split
  · refine (uses_assign ?_ pop3).trans (uses_assign ?_ _) <;> exact fun _ => rfl
  · exact .refl index pop3

theorem uses_setSubject (platform : Platform) (index : Int) (value : Bytes)
    (pop3 : Pop3Socket) : Uses index pop3 (setSubject platform index value pop3) := by
  refine (uses_assign ?_ pop3).trans (uses_assign ?_ _) <;> exact fun _ => rfl

theorem uses_setSender (index : Int) (value : Bytes) (pop3 : Pop3Socket) :
    Uses index pop3 (setSender index value pop3) := by
  rw [setSender]
  split
  · apply uses_assign
    exact fun _ => rfl
  · exact .refl index pop3

theorem uses_setMessageID (index : Int) (value : Bytes) (pop3 : Pop3Socket) :
    Uses index pop3 (setMessageID index value pop3) := by
  apply uses_assign
  exact fun _ => rfl

theorem uses_readHeader (platform : Platform) (timeItem : TimeItem) (index : Int)
    (pop3 : Pop3Socket) : Uses index pop3 (pop3.readHeader platform timeItem index) :=
  (uses_setTag (uses_setDate timeItem index) _ _ _).trans
    ((uses_setTag (uses_setSubject platform index) _ _ _).trans
      ((uses_setTag (uses_setSender index) _ _ _).trans
        (uses_setTag (uses_setMessageID index) _ _ _)))

theorem uses_getHeader (platform : Platform) (timeItem : TimeItem) (peer : Peer) (polls : Nat)
    (index : Int) (pop3 : Pop3Socket) :
    Uses index pop3 (getHeader platform timeItem peer polls index pop3).2 := by
  rw [getHeader]
  split
  · exact .refl index pop3
  · have keeps := request_keeps peer polls true (pop3.print 16 (topCommand index))
    have asked : Uses index pop3 (request peer polls true (pop3.print 16 (topCommand index))).2 :=
      ⟨(keeps.uses index).ids, (keeps.uses index).accesses⟩
    rw [andThen]
    split
    · next after answered =>
        rw [answered] at asked
        exact asked.trans (uses_readHeader platform timeItem index after)
    · next after answered =>
        rw [answered] at asked
        exact asked
    · next after answered =>
        rw [answered] at asked
        exact asked

/-- The getters, as the client calls them behind `getHeader`. -/
def getFields (index : Int) (pop3 : Pop3Socket) : Pop3Socket :=
  let pop3 := (getTitle index pop3).2
  let pop3 := (getFrom index pop3).2
  let pop3 := (getMessageID index pop3).2
  let pop3 := (getDate index pop3).2
  (getTime index pop3).2

theorem getFields_eq (index : Int) (pop3 : Pop3Socket) :
    getFields index pop3 =
      { pop3 with accesses := pop3.accesses ++ List.replicate 5 (index - 1) } := by
  simp [getFields, getTitle, getFrom, getMessageID, getDate, getTime, getField, List.replicate]

/-- The sockets behind any calls of `getHeader` and of the getters. -/
inductive Browses (platform : Platform) (timeItem : TimeItem) (listed : Pop3Socket) :
    Pop3Socket → Prop
  | listed : Browses platform timeItem listed listed
  | header {now : Pop3Socket} (peer : Peer) (polls : Nat) (index : Int) :
      Browses platform timeItem listed now →
      Browses platform timeItem listed (getHeader platform timeItem peer polls index now).2
  | fields {now : Pop3Socket} (index : Int) : Browses platform timeItem listed now →
      Browses platform timeItem listed (getFields index now)

theorem Browses.ids {platform : Platform} {timeItem : TimeItem} {listed now : Pop3Socket}
    (browses : Browses platform timeItem listed now) :
    now.mailList.map MailItem.id = listed.mailList.map MailItem.id := by
  induction browses with
  | listed => rfl
  | header peer polls index browses induction =>
      exact (uses_getHeader platform timeItem peer polls index _).ids.trans induction
  | fields index browses induction =>
      rw [getFields_eq]
      exact induction

/-! ## Entries and their numbers -/

/-- A position inside the list, of the entry with this number. -/
def OwnEntry (mailList : List MailItem) (id position : Int) : Prop :=
  0 ≤ position ∧ ∃ item, mailList[position.toNat]? = some item ∧ item.id = id

theorem ownEntry_iff (mailList : List MailItem) (id : Int) :
    OwnEntry mailList id (id - 1) ↔ AtOwnPlace (mailList.map MailItem.id) id := by
  rw [OwnEntry, AtOwnPlace, List.getElem?_map, Option.map_eq_some_iff]
  apply and_congr_left'
  omega

theorem mem_take_iff_getMailID (pop3 : Pop3Socket) (id : Int) :
    id ∈ (pop3.mailList.map MailItem.id).take (int32 pop3.mailList.length).toNat ↔
      ∃ index, 0 ≤ index ∧ index < pop3.getMailCount ∧ pop3.getMailID index = id := by
  have count := int32_le pop3.mailList.length
  rw [List.mem_take_iff_getElem]
  constructor
  · rintro ⟨index, inside, rfl⟩
    rw [List.length_map] at inside
    refine ⟨index, by omega, by rw [getMailCount]; omega, ?_⟩
    rw [getMailID, if_neg (by omega), Int.toNat_natCast,
      List.getElem?_eq_getElem (by omega), List.getElem_map]
    rfl
  · rintro ⟨index, positive, inside, rfl⟩
    rw [getMailCount] at inside
    refine ⟨index.toNat, by rw [List.length_map]; omega, ?_⟩
    rw [getMailID, if_neg (by omega), List.getElem?_eq_getElem (by omega), List.getElem_map]
    rfl

/-! ## Answers to TOP -/

def emptyReplies : Peer := ⟨fun _ => true, fun _ => .data (ascii "\r\n.\r\n")⟩

theorem getHeader_emptyReplies (platform : Platform) (timeItem : TimeItem) (index : Int)
    {pop3 : Pop3Socket} (opened : pop3.hSocket ≠ INVALID_SOCKET) :
    (getHeader platform timeItem emptyReplies 1 index pop3).1 = some true := by
  have ended : contains (ascii "\r\n.\r\n") (ascii "\r\n.\r\n") = true := by decide
  have asks : topCommand index ≠ [] := by
    rw [topCommand]
    exact List.append_ne_nil_of_right_ne_nil _ (by decide)
  simp [getHeader, andThen, request, print, opened, asks, emptyReplies, recvBody, receive,
    recvLoop, ended]

/-! ## The positions -/

/-- Whatever headers have been read: the uses of the list for a number that `getMailID` hands
out are inside it, at the entry with the number. -/
def PositionsOwn (platform : Platform) (timeItem : TimeItem) (listed : Pop3Socket) : Prop :=
  ∀ now, Browses platform timeItem listed now →
    ∀ index, 0 ≤ index → index < now.getMailCount →
    ∀ (peer : Peer) (polls : Nat) (header : Pop3Socket),
    getHeader platform timeItem peer polls (now.getMailID index) now = (some true, header) →
    ∃ used, (getFields (now.getMailID index) header).accesses = now.accesses ++ used ∧
      ∀ position ∈ used, OwnEntry now.mailList (now.getMailID index) position

theorem positionsOwn_iff (platform : Platform) (timeItem : TimeItem) {listed : Pop3Socket}
    {numbers : List Int} (opened : listed.hSocket ≠ INVALID_SOCKET)
    (ids : listed.mailList.map MailItem.id = numbers) :
    PositionsOwn platform timeItem listed ↔ InPlace numbers := by
  have count : numbers.length = listed.mailList.length := by
    rw [← ids, List.length_map]
  constructor
  · intro own number member
    rw [count, ← ids, mem_take_iff_getMailID] at member
    rcases member with ⟨index, positive, inside, rfl⟩
    have answered := getHeader_emptyReplies platform timeItem (listed.getMailID index) opened
    have uses := uses_getHeader platform timeItem emptyReplies 1 (listed.getMailID index) listed
    rcases own listed .listed index positive inside emptyReplies 1 _
      (Prod.ext answered rfl) with ⟨used, accesses, entries⟩
    rcases uses.accesses with ⟨header, same⟩
    rw [getFields_eq] at accesses
    dsimp only at accesses
    rw [same, List.append_assoc, List.append_cancel_left_eq] at accesses
    have read : listed.getMailID index - 1 ∈ used := by
      rw [← accesses]
      simp
    rw [← ids, ← ownEntry_iff]
    exact entries _ read
  · intro inPlace now browses index positive inside peer polls header answered
    have same := browses.ids.trans ids
    have size : now.mailList.length = numbers.length := by
      rw [← same, List.length_map]
    have member : now.getMailID index ∈ numbers.take (int32 numbers.length).toNat := by
      rw [← size, ← same, mem_take_iff_getMailID]
      exact ⟨index, positive, inside, rfl⟩
    have entry : OwnEntry now.mailList (now.getMailID index) (now.getMailID index - 1) := by
      rw [ownEntry_iff, same]
      exact inPlace _ member
    have uses := uses_getHeader platform timeItem peer polls (now.getMailID index) now
    rw [answered] at uses
    rcases uses.accesses with ⟨headers, accesses⟩
    refine ⟨List.replicate headers (now.getMailID index - 1) ++
      List.replicate 5 (now.getMailID index - 1), ?_, ?_⟩
    · rw [getFields_eq]
      dsimp only
      rw [accesses, List.append_assoc]
    · intro position use
      rw [List.replicate_append_replicate] at use
      rw [List.eq_of_mem_replicate use]
      exact entry

/-- The positions are right behind a list exactly if its numbers are in place. -/
theorem mail_positions_iff (platform : Platform) (timeItem : TimeItem) {peer : Peer}
    {polls : Nat} {before listed : Pop3Socket}
    (list : getList peer polls before = (some true, listed)) :
    PositionsOwn platform timeItem listed ↔ InPlace (listedNumbers listed.strRecv) :=
  positionsOwn_iff platform timeItem (getList_listed list).1 (getList_listed list).2

/-- `getList` with a reply that arrives at once. -/
def listing (response : Bytes) : Result :=
  getList ⟨fun _ => true, fun _ => .data response⟩ 1 ⟨0, true, [], [], [], [], false, []⟩

/-- Two mails, numbered from one. -/
theorem two_mails_in_place :
    listedNumbers (ascii "+OK 2 30\r\n1 10\r\n2 20\r\n.\r\n") = [1, 2] ∧
      ∀ platform timeItem,
        PositionsOwn platform timeItem
          (listing (ascii "+OK 2 30\r\n1 10\r\n2 20\r\n.\r\n")).2 := by
  have numbers : listedNumbers (ascii "+OK 2 30\r\n1 10\r\n2 20\r\n.\r\n") = [1, 2] := by
    decide +kernel
  have received : (listing (ascii "+OK 2 30\r\n1 10\r\n2 20\r\n.\r\n")).2.strRecv =
      ascii "+OK 2 30\r\n1 10\r\n2 20\r\n.\r\n" := by
    decide +kernel
  have answered : (listing (ascii "+OK 2 30\r\n1 10\r\n2 20\r\n.\r\n")).1 = some true := by
    decide +kernel
  have inPlace : InPlace [1, 2] := by
    unfold InPlace
    decide
  refine ⟨numbers, ?_⟩
  intro platform timeItem
  generalize same : listing (ascii "+OK 2 30\r\n1 10\r\n2 20\r\n.\r\n") = result
    at received answered ⊢
  rcases result with ⟨outcome, listed⟩
  dsimp only at received answered
  subst answered
  rw [listing] at same
  rw [mail_positions_iff platform timeItem same, received, numbers]
  exact inPlace

/-- The first mail is deleted: the number of the second is taken for a position outside. -/
theorem gap_in_numbers_leaves_list :
    (listing (ascii "+OK\r\n2 20\r\n.\r\n")).1 = some true ∧
      ∀ platform timeItem,
        ¬ PositionsOwn platform timeItem (listing (ascii "+OK\r\n2 20\r\n.\r\n")).2 := by
  have answered : (listing (ascii "+OK\r\n2 20\r\n.\r\n")).1 = some true := by
    decide +kernel
  have opened : (listing (ascii "+OK\r\n2 20\r\n.\r\n")).2.hSocket ≠ INVALID_SOCKET := by
    decide +kernel
  have ids : (listing (ascii "+OK\r\n2 20\r\n.\r\n")).2.mailList.map MailItem.id = [2] := by
    decide +kernel
  have outside : ¬ InPlace [2] := by
    unfold InPlace
    decide
  refine ⟨answered, ?_⟩
  intro platform timeItem own
  exact outside ((positionsOwn_iff platform timeItem opened ids).mp own)

end MyBookSources.RecvMail.Pop3Socket
