import PgCluster.Foundation.TextTables

/-! The bootstrap script of Patroni for wal-g: the newest rows of two listings, found by text
tools, and the copy that is restored.
-/

namespace PgCluster.Patroni

open Foundation

-----------------------------------------------------------------------------------------
-- The script
-----------------------------------------------------------------------------------------

/-- The field $2 of awk. -/
def awkSecond (line : List Char) : List Char := ((blankFields line)[1]?).getD []

/-- The function of the script, on the text of a listing. -/
def getLatestDate (listing : List Char) : List Char :=
  let lines := (listing.splitOn '\n').drop 1
  let keyed := lines.map (fun line => awkSecond line ++ ' ' :: line)
  commandOutput ((lastSorted keyed).toList.map (cutFromSecond ' '))

def noBackupsFound : List Char := "No backups found".toList

/-- What the script does in the end. -/
inductive Bootstrap where
  | initdb
  | backupFetch
  | catchupFetch
deriving DecidableEq, Repr

/-- The script, on the texts of `backup_list` and `catchup_list`. -/
def bootstrapScript (backupList catchupList : List Char) : Bootstrap :=
  if noBackupsFound <:+: backupList ∧ noBackupsFound <:+: catchupList then
    .initdb
  else if getLatestDate catchupList < getLatestDate backupList then
    .backupFetch
  else
    .catchupFetch

-----------------------------------------------------------------------------------------
-- Listings
-----------------------------------------------------------------------------------------

/-- The column of a table: visible characters. -/
def IsWord (text : List Char) : Prop := text ≠ [] ∧ ∀ value ∈ text, ' ' < value

instance (text : List Char) : Decidable (IsWord text) :=
  @instDecidableAnd (text ≠ []) (∀ value ∈ text, ' ' < value) inferInstance
    (List.decidableBAll (fun value => ' ' < value) text)

/-- A row of a table: the name, blanks, the timestamp, and what follows. -/
structure BackupRow where
  name : List Char
  gap : Nat
  timestamp : List Char
  rest : List Char
  nameWord : IsWord name
  timestampWord : IsWord timestamp
  restLine : '\n' ∉ rest
  restApart : rest = [] ∨ ∃ more, rest = ' ' :: more

def BackupRow.text (row : BackupRow) : List Char :=
  row.name ++ ' ' :: (List.replicate row.gap ' ' ++ (row.timestamp ++ row.rest))

/-- What wal-g prints: a message that there are no backups, or a table. -/
inductive Listing where
  | noBackups (message : List Char) (single : '\n' ∉ message)
      (reported : noBackupsFound <:+: message)
  | table (header : List Char) (single : '\n' ∉ header) (nonempty : header ≠ [])
      (rows : List BackupRow)

namespace Listing

def lines : Listing → List (List Char)
  | noBackups message _ _ => [message]
  | table header _ _ rows => header :: rows.map BackupRow.text

/-- The text that the script holds in its variable. -/
def text (listing : Listing) : List Char := commandOutput listing.lines

def rows : Listing → List BackupRow
  | noBackups _ _ _ => []
  | table _ _ _ rows => rows

/-- The listing reports that there are no backups. -/
def Reports : Listing → Prop
  | noBackups _ _ _ => True
  | table _ _ _ _ => False

/-- The row has the latest timestamp of its listing, and the greatest text among such. -/
structure Newest (listing : Listing) (row : BackupRow) : Prop where
  listed : row ∈ listing.rows
  latest
    : ∀ other ∈ listing.rows,
        other.timestamp < row.timestamp
        ∨ other.timestamp = row.timestamp ∧ other.text ≤ row.text

end Listing

-----------------------------------------------------------------------------------------
-- The latest row
-----------------------------------------------------------------------------------------

theorem IsWord.not_blank {text : List Char} (word : IsWord text)
    : ∀ value ∈ text, isBlank value = false := by
  intro value member
  have visible := word.2 value member
  have space : value ≠ ' ' := visible.ne'
  have tab : value ≠ '\t' := by
    intro same
    subst same
    exact absurd visible (by decide)
  simp [isBlank, space, tab]

theorem IsWord.not_mem {text : List Char} (word : IsWord text) {value : Char}
    (low : value ≤ ' ')
    : value ∉ text :=
  fun member => absurd (word.2 value member) (not_lt.mpr low)

namespace BackupRow

theorem text_ne_nil (row : BackupRow) : row.text ≠ [] := by
  simp [text]

theorem nil_lt_text (row : BackupRow) : [] < row.text := by
  cases shown : row.text with
  | nil => exact absurd shown row.text_ne_nil
  | cons head tail => exact List.nil_lt_cons head tail

theorem text_oneLine (row : BackupRow) : '\n' ∉ row.text := by
  have low : '\n' ≤ ' ' := by decide
  simp [text, row.nameWord.not_mem low, row.timestampWord.not_mem low, row.restLine]

/-- awk finds the timestamp, whatever the width of the columns. -/
theorem awkSecond_text (row : BackupRow) : awkSecond row.text = row.timestamp := by
  have word := row.timestampWord
  have fields : ∃ more, blankFields (row.timestamp ++ row.rest) = row.timestamp :: more := by
    rcases row.restApart with none_ | ⟨more, rest⟩
    · exact ⟨[], by rw [none_, List.append_nil, blankFields_last word.1 word.not_blank]⟩
    · exact ⟨blankFields more, by rw [rest, blankFields_word word.1 word.not_blank]⟩
  obtain ⟨more, fields⟩ := fields
  rw [awkSecond, text, blankFields_word row.nameWord.1 row.nameWord.not_blank,
    blankFields_blanks, fields]
  rfl

/-- The line that is sorted. -/
def keyed (row : BackupRow) : List Char := row.timestamp ++ ' ' :: row.text

/-- The lines are sorted by the timestamps first and by the rows behind them. -/
theorem keyed_le_iff (row other : BackupRow)
    : other.keyed ≤ row.keyed
      ↔ other.timestamp < row.timestamp
        ∨ other.timestamp = row.timestamp ∧ other.text ≤ row.text := by
  rw [← not_lt, keyed, keyed, append_sep_lt_iff row.timestampWord.2 other.timestampWord.2,
    not_or, not_lt, not_and, not_lt, le_iff_lt_or_eq]
  constructor
  · intro below
    obtain ⟨earlier | same, behind⟩ := below
    · exact .inl earlier
    · exact .inr ⟨same, behind same.symm⟩
  · intro below
    rcases below with earlier | ⟨same, behind⟩
    · exact ⟨.inl earlier, fun same => absurd same earlier.ne'⟩
    · exact ⟨.inr same, fun _ => behind⟩

theorem cut_keyed (row : BackupRow) : cutFromSecond ' ' row.keyed = row.text :=
  cutFromSecond_append (row.timestampWord.not_mem (le_refl ' '))

end BackupRow

namespace Listing

/-- The lines of the text below the first are those of the rows. -/
theorem splitOn_text (listing : Listing)
    : (listing.text.splitOn '\n').drop 1 = listing.rows.map BackupRow.text := by
  cases listing with
  | noBackups message single reported =>
      simp [text, lines, rows, commandOutput_single single, List.splitOn_eq_singleton single]
  | table header single nonempty rows =>
      have oneLine : ∀ line ∈ header :: rows.map BackupRow.text, '\n' ∉ line := by
        intro line member
        rcases List.mem_cons.mp member with same | below
        · exact same ▸ single
        · obtain ⟨row, _, same⟩ := List.mem_map.mp below
          exact same ▸ row.text_oneLine
      have split : (commandOutput (header :: rows.map BackupRow.text)).splitOn '\n'
          = header :: rows.map BackupRow.text := by
        rcases List.eq_nil_or_concat rows with none_ | ⟨above, last, parts⟩
        · subst none_
          exact splitOn_commandOutput [] nonempty (by simpa using single)
        · have lines_ : header :: rows.map BackupRow.text
              = (header :: above.map BackupRow.text) ++ [last.text] := by
            simp [parts]
          rw [lines_] at oneLine ⊢
          exact splitOn_commandOutput _ last.text_ne_nil oneLine
      simp only [text, lines, Listing.rows, split, List.drop_succ_cons, List.drop_zero]

/-- The keyed lines of the script are those of the rows. -/
theorem keyed_lines (listing : Listing)
    : ((listing.text.splitOn '\n').drop 1).map (fun line => awkSecond line ++ ' ' :: line)
      = listing.rows.map BackupRow.keyed := by
  rw [listing.splitOn_text, List.map_map]
  refine List.map_congr_left (fun row _ => ?_)
  simp [BackupRow.awkSecond_text, BackupRow.keyed]

/-- Nothing is found in a listing without rows. -/
theorem latest_of_nil {listing : Listing} (empty : listing.rows = [])
    : getLatestDate listing.text = [] := by
  simp only [getLatestDate, keyed_lines, empty]
  rfl

/-- A listing with rows has a newest one, the last in sorted order, and its text is found. -/
theorem exists_newest {listing : Listing} (nonempty : listing.rows ≠ [])
    : ∃ row, listing.Newest row ∧ getLatestDate listing.text = row.text := by
  obtain ⟨line, last⟩ := lastSorted_isSome
    (List.map_eq_nil_iff.not.mpr nonempty : listing.rows.map BackupRow.keyed ≠ [])
  obtain ⟨member, greatest⟩ := lastSorted_spec last
  obtain ⟨row, listed, same⟩ := List.mem_map.mp member
  refine ⟨row, ⟨listed, ?_⟩, ?_⟩
  · intro other otherListed
    rw [← BackupRow.keyed_le_iff, same]
    exact greatest _ (List.mem_map_of_mem otherListed)
  · simp only [getLatestDate, keyed_lines, last, Option.toList_some, List.map_cons,
      List.map_nil, ← same, BackupRow.cut_keyed, commandOutput_single row.text_oneLine]

/-- Newest rows of one listing have the same timestamp and the same text. -/
theorem Newest.unique {listing : Listing} {row other : BackupRow} (newest : listing.Newest row)
    (otherNewest : listing.Newest other)
    : row.timestamp = other.timestamp ∧ row.text = other.text := by
  have below := newest.latest other otherNewest.listed
  have above := otherNewest.latest row newest.listed
  rcases below with earlier | ⟨same, behind⟩
  · rcases above with later | ⟨same, _⟩
    · exact absurd earlier later.not_gt
    · exact absurd same earlier.ne'
  · rcases above with later | ⟨_, ahead⟩
    · exact absurd same later.ne'
    · exact ⟨same.symm, le_antisymm ahead behind⟩

end Listing

-----------------------------------------------------------------------------------------
-- The decision
-----------------------------------------------------------------------------------------

/-- The listing has a row with the latest timestamp of all the given ones. -/
def Listing.HasLatest (listing : Listing) (rows : List BackupRow) : Prop :=
  ∃ row ∈ listing.rows, ∀ other ∈ rows, other.timestamp ≤ row.timestamp

/-- The script initialises a database if and only if there are no backups at all, and
otherwise fetches from a listing with a latest row.
-/
structure RestoresNewest (backups catchups : Listing) : Prop where
  initdb
    : bootstrapScript backups.text catchups.text = .initdb
      ↔ backups.Reports ∧ catchups.Reports
  backupFetch
    : bootstrapScript backups.text catchups.text = .backupFetch
      → backups.rows ++ catchups.rows ≠ []
      → backups.HasLatest (backups.rows ++ catchups.rows)
  catchupFetch
    : bootstrapScript backups.text catchups.text = .catchupFetch
      → backups.rows ++ catchups.rows ≠ []
      → catchups.HasLatest (backups.rows ++ catchups.rows)

/-- Tables are not taken for messages, and the texts of the newest rows, which begin with the
names, are in the order of their timestamps.
-/
structure NamesFollowTime (backups catchups : Listing) : Prop where
  messages
    : noBackupsFound <:+: backups.text ∧ noBackupsFound <:+: catchups.text
      → backups.Reports ∧ catchups.Reports
  ordered
    : ∀ backup catchup,
        backups.Newest backup → catchups.Newest catchup
        → backup.timestamp = catchup.timestamp
          ∨ (catchup.text < backup.text ↔ catchup.timestamp < backup.timestamp)

namespace Listing

theorem Reports.contains {listing : Listing} (reports : listing.Reports)
    : noBackupsFound <:+: listing.text := by
  cases listing with
  | noBackups message single reported => simpa [text, lines, commandOutput_single single]
  | table header single nonempty rows => exact reports.elim

theorem Reports.rows_nil {listing : Listing} (reports : listing.Reports)
    : listing.rows = [] := by
  cases listing with
  | noBackups message single reported => rfl
  | table header single nonempty rows => exact reports.elim

theorem Newest.timestamp_le {listing : Listing} {row : BackupRow} (newest : listing.Newest row)
    {other : BackupRow} (listed : other ∈ listing.rows)
    : other.timestamp ≤ row.timestamp := by
  rcases newest.latest other listed with earlier | ⟨same, _⟩
  · exact earlier.le
  · exact same.le

/-- Of two listings with rows, one has a latest row of both if and only if its newest row is
not earlier than that of the other.
-/
theorem Newest.hasLatest_iff {listing other : Listing} {row otherRow : BackupRow}
    (newest : listing.Newest row) (otherNewest : other.Newest otherRow) {all : List BackupRow}
    (together : ∀ entry, entry ∈ all ↔ entry ∈ listing.rows ∨ entry ∈ other.rows)
    : listing.HasLatest all ↔ otherRow.timestamp ≤ row.timestamp := by
  constructor
  · intro latest
    obtain ⟨found, listed, bounds⟩ := latest
    exact (bounds otherRow ((together _).mpr (.inr otherNewest.listed))).trans
      (newest.timestamp_le listed)
  · intro behind
    refine ⟨row, newest.listed, fun entry member => ?_⟩
    rcases (together entry).mp member with mine | theirs
    · exact newest.timestamp_le mine
    · exact (otherNewest.timestamp_le theirs).trans behind

/-- A listing has a latest row of its own. -/
theorem hasLatest_rows {listing : Listing} (nonempty : listing.rows ≠ [])
    : listing.HasLatest listing.rows := by
  obtain ⟨row, newest, _⟩ := exists_newest nonempty
  exact ⟨row, newest.listed, fun _ member => newest.timestamp_le member⟩

theorem not_newest {listing : Listing} (empty : listing.rows = []) (row : BackupRow)
    : ¬ listing.Newest row := by
  intro newest
  have listed := newest.listed
  simp [empty] at listed

end Listing

open Listing

/-- When the script takes both outputs for messages, they have to be messages. -/
theorem restoresNewest_of_contains {backups catchups : Listing}
    (both : noBackupsFound <:+: backups.text ∧ noBackupsFound <:+: catchups.text)
    : RestoresNewest backups catchups ↔ NamesFollowTime backups catchups := by
  have action : bootstrapScript backups.text catchups.text = .initdb := if_pos both
  constructor
  · intro restores
    have reports := restores.initdb.mp action
    refine ⟨fun _ => reports, ?_⟩
    intro backup catchup newest
    exact (not_newest reports.1.rows_nil backup newest).elim
  · intro names
    have reports := names.messages both
    refine ⟨iff_of_true action reports, ?_, ?_⟩
    · simp [action]
    · simp [action]

/-- When both listings have rows, the texts of the newest ones decide. -/
theorem fetches_iff {backups catchups : Listing} {backup catchup : BackupRow}
    (newest : backups.Newest backup) (catchupNewest : catchups.Newest catchup)
    : ((catchup.text < backup.text → backups.HasLatest (backups.rows ++ catchups.rows))
        ∧ (¬ catchup.text < backup.text → catchups.HasLatest (backups.rows ++ catchups.rows)))
      ↔ ∀ first second,
          backups.Newest first → catchups.Newest second
          → first.timestamp = second.timestamp
            ∨ (second.text < first.text ↔ second.timestamp < first.timestamp) := by
  rw [newest.hasLatest_iff catchupNewest (by simp),
    catchupNewest.hasLatest_iff newest (by simp [or_comm])]
  constructor
  · intro fetches first second firstNewest secondNewest
    obtain ⟨firstTime, firstText⟩ := firstNewest.unique newest
    obtain ⟨secondTime, secondText⟩ := secondNewest.unique catchupNewest
    rw [firstTime, firstText, secondTime, secondText]
    by_cases names : catchup.text < backup.text
    · rcases (fetches.1 names).lt_or_eq with earlier | same
      · exact .inr (iff_of_true names earlier)
      · exact .inl same.symm
    · exact .inr (iff_of_false names (fetches.2 names).not_gt)
  · intro ordered
    rcases ordered backup catchup newest catchupNewest with same | agree
    · exact ⟨fun _ => same.ge, fun _ => same.le⟩
    · exact ⟨fun names => (agree.mp names).le, fun names => not_lt.mp (agree.not.mp names)⟩

/-- Without the message in both outputs the greater date decides. -/
theorem bootstrapScript_of_not_contains {backups catchups : Listing}
    (some_ : ¬ (noBackupsFound <:+: backups.text ∧ noBackupsFound <:+: catchups.text))
    : bootstrapScript backups.text catchups.text
        = (if getLatestDate catchups.text < getLatestDate backups.text then .backupFetch
          else .catchupFetch)
      ∧ (bootstrapScript backups.text catchups.text = .initdb
        ↔ backups.Reports ∧ catchups.Reports) := by
  have action : bootstrapScript backups.text catchups.text
      = if getLatestDate catchups.text < getLatestDate backups.text then .backupFetch
        else .catchupFetch := if_neg some_
  refine ⟨action, iff_of_false ?_ ?_⟩
  · rw [action]
    split <;> simp
  · exact fun reports => some_ ⟨reports.1.contains, reports.2.contains⟩

/-- Against a listing without rows the other one is right, and nothing has to be ordered. -/
theorem restoresNewest_of_rows_nil {backups catchups : Listing}
    (some_ : ¬ (noBackupsFound <:+: backups.text ∧ noBackupsFound <:+: catchups.text))
    (empty : backups.rows = [] ∨ catchups.rows = [])
    : RestoresNewest backups catchups ∧ NamesFollowTime backups catchups := by
  obtain ⟨action, initdb⟩ := bootstrapScript_of_not_contains some_
  by_cases none_ : backups.rows = []
  · have fetched : bootstrapScript backups.text catchups.text = .catchupFetch := by
      rw [action, latest_of_nil none_]
      simp
    refine ⟨⟨initdb, by simp [fetched], fun _ listed => ?_⟩, fun contains =>
      (some_ contains).elim, fun backup _ newest => (not_newest none_ backup newest).elim⟩
    rw [none_, List.nil_append] at listed ⊢
    exact hasLatest_rows listed
  · have empty := empty.resolve_left none_
    obtain ⟨backup, newest, backupDate⟩ := exists_newest none_
    have fetched : bootstrapScript backups.text catchups.text = .backupFetch := by
      rw [action, latest_of_nil empty, backupDate, if_pos backup.nil_lt_text]
    refine ⟨⟨initdb, fun _ listed => ?_, by simp [fetched]⟩, fun contains =>
      (some_ contains).elim, fun _ catchup _ other => (not_newest empty catchup other).elim⟩
    rw [empty, List.append_nil] at listed ⊢
    exact hasLatest_rows listed

/-- The script restores the newest copy if and only if no table is taken for a message and
the names of the newest rows follow their timestamps, by cases on the listings with rows.
-/
theorem restoresNewest_iff (backups catchups : Listing)
    : RestoresNewest backups catchups ↔ NamesFollowTime backups catchups := by
  by_cases both : noBackupsFound <:+: backups.text ∧ noBackupsFound <:+: catchups.text
  · exact restoresNewest_of_contains both
  by_cases empty : backups.rows = [] ∨ catchups.rows = []
  · have right := restoresNewest_of_rows_nil both empty
    exact iff_of_true right.1 right.2
  obtain ⟨none_, others⟩ := not_or.mp empty
  obtain ⟨action, initdb⟩ := bootstrapScript_of_not_contains both
  obtain ⟨backup, newest, backupDate⟩ := exists_newest none_
  obtain ⟨catchup, catchupNewest, catchupDate⟩ := exists_newest others
  have some_ : backups.rows ++ catchups.rows ≠ [] := by simp [none_]
  rw [backupDate, catchupDate] at action
  have fetches := fetches_iff newest catchupNewest
  constructor
  · intro restores
    refine ⟨fun contains => (both contains).elim, fetches.mp ⟨fun names => ?_, fun names => ?_⟩⟩
    · exact restores.backupFetch (action.trans (if_pos names)) some_
    · exact restores.catchupFetch (action.trans (if_neg names)) some_
  · intro names
    obtain ⟨later, earlier⟩ := fetches.mpr names.ordered
    refine ⟨initdb, fun fetched _ => later ?_, fun fetched _ => earlier ?_⟩
    · by_contra other
      simp [action, other] at fetched
    · intro other
      simp [action, other] at fetched

/-- A backup of February, named in front of a copy of January. -/
def februaryBackup : Listing :=
  .table "name modified".toList (by decide) (by decide)
    [⟨"base_2".toList, 0, "2024-02-01T00:00:00Z".toList, [], by decide, by decide, by decide,
      .inl rfl⟩]

def januaryCatchup : Listing :=
  .table "name modified".toList (by decide) (by decide)
    [⟨"copy_1".toList, 0, "2024-01-01T00:00:00Z".toList, [], by decide, by decide, by decide,
      .inl rfl⟩]

/-- The copy of January is fetched. -/
theorem restoresNewest_names : ¬ RestoresNewest februaryBackup januaryCatchup := by
  intro restores
  have fetched : bootstrapScript februaryBackup.text januaryCatchup.text = .catchupFetch := by
    decide
  obtain ⟨row, listed, latest⟩ := restores.catchupFetch fetched (by simp [rows, februaryBackup])
  have january : row.timestamp = "2024-01-01T00:00:00Z".toList := by
    rw [List.mem_singleton.mp listed]
  have behind := latest _ (List.mem_append_left _ (List.mem_singleton_self _))
  rw [january] at behind
  revert behind
  decide

end PgCluster.Patroni
