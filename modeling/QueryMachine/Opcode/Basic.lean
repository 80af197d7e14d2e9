/-!
The instructions of the machine, with the names and the numbers that programs use for them.
-/

namespace QueryMachine

inductive Opcode
  | function
  | savepoint
  | autoCommit
  | transaction
  | sorterNext
  | prevIfOpen
  | nextIfOpen
  | prev
  | next
  | aggStep
  | checkpoint
  | journalMode
  | vacuum
  | vFilter
  | vUpdate
  | goto
  | gosub
  | returnTo
  | logicalNot
  | initCoroutine
  | endCoroutine
  | yield
  | haltIfNull
  | halt
  | integer
  | int64
  | string
  | null
  | softNull
  | blob
  | parameter
  | move
  | copy
  | sCopy
  | resultRow
  | collSeq
  | addImm
  | mustBeInt
  | realAffinity
  | cast
  | permutation
  | compare
  | jump
  | once
  | ifTrue
  | ifNot
  | column
  | affinity
  | makeRecord
  | count
  | readCookie
  | setCookie
  | reopenIdx
  | openRead
  | openWrite
  | openAutoindex
  | openEphemeral
  | sorterOpen
  | sequenceTest
  | openPseudo
  | close
  | seekLT
  | seekLE
  | seekGE
  | seekGT
  | seek
  | noConflict
  | notFound
  | found
  | notExists
  | logicalOr
  | logicalAnd
  | sequence
  | newRowid
  | insert
  | isNull
  | notNull
  | ne
  | eq
  | gt
  | le
  | lt
  | ge
  | insertInt
  | bitAnd
  | bitOr
  | shiftLeft
  | shiftRight
  | add
  | subtract
  | multiply
  | divide
  | remainder
  | concat
  | delete
  | bitNot
  | string8
  | resetCount
  | sorterCompare
  | sorterData
  | rowKey
  | rowData
  | rowid
  | nullRow
  | last
  | sorterSort
  | sort
  | rewind
  | sorterInsert
  | idxInsert
  | idxDelete
  | idxRowid
  | idxLE
  | idxGT
  | idxLT
  | idxGE
  | destroy
  | clear
  | resetSorter
  | createIndex
  | createTable
  | parseSchema
  | loadAnalysis
  | dropTable
  | dropIndex
  | dropTrigger
  | integrityCk
  | rowSetAdd
  | rowSetRead
  | rowSetTest
  | subprogram
  | frameParameter
  | real
  | fkCounter
  | fkIfZero
  | memMax
  | ifPos
  | ifNeg
  | ifZero
  | aggFinal
  | incrVacuum
  | expire
  | tableLock
  | vBegin
  | vCreate
  | vDestroy
  | vOpen
  | vColumn
  | vNext
  | vRename
  | pagecount
  | maxPgcnt
  | init
  | noop
  | explain
  deriving Repr, DecidableEq, Inhabited

namespace Opcode

def name : Opcode → String
  | .function => "Function"
  | .savepoint => "Savepoint"
  | .autoCommit => "AutoCommit"
  | .transaction => "Transaction"
  | .sorterNext => "SorterNext"
  | .prevIfOpen => "PrevIfOpen"
  | .nextIfOpen => "NextIfOpen"
  | .prev => "Prev"
  | .next => "Next"
  | .aggStep => "AggStep"
  | .checkpoint => "Checkpoint"
  | .journalMode => "JournalMode"
  | .vacuum => "Vacuum"
  | .vFilter => "VFilter"
  | .vUpdate => "VUpdate"
  | .goto => "Goto"
  | .gosub => "Gosub"
  | .returnTo => "Return"
  | .logicalNot => "Not"
  | .initCoroutine => "InitCoroutine"
  | .endCoroutine => "EndCoroutine"
  | .yield => "Yield"
  | .haltIfNull => "HaltIfNull"
  | .halt => "Halt"
  | .integer => "Integer"
  | .int64 => "Int64"
  | .string => "String"
  | .null => "Null"
  | .softNull => "SoftNull"
  | .blob => "Blob"
  | .parameter => "Variable"
  | .move => "Move"
  | .copy => "Copy"
  | .sCopy => "SCopy"
  | .resultRow => "ResultRow"
  | .collSeq => "CollSeq"
  | .addImm => "AddImm"
  | .mustBeInt => "MustBeInt"
  | .realAffinity => "RealAffinity"
  | .cast => "Cast"
  | .permutation => "Permutation"
  | .compare => "Compare"
  | .jump => "Jump"
  | .once => "Once"
  | .ifTrue => "If"
  | .ifNot => "IfNot"
  | .column => "Column"
  | .affinity => "Affinity"
  | .makeRecord => "MakeRecord"
  | .count => "Count"
  | .readCookie => "ReadCookie"
  | .setCookie => "SetCookie"
  | .reopenIdx => "ReopenIdx"
  | .openRead => "OpenRead"
  | .openWrite => "OpenWrite"
  | .openAutoindex => "OpenAutoindex"
  | .openEphemeral => "OpenEphemeral"
  | .sorterOpen => "SorterOpen"
  | .sequenceTest => "SequenceTest"
  | .openPseudo => "OpenPseudo"
  | .close => "Close"
  | .seekLT => "SeekLT"
  | .seekLE => "SeekLE"
  | .seekGE => "SeekGE"
  | .seekGT => "SeekGT"
  | .seek => "Seek"
  | .noConflict => "NoConflict"
  | .notFound => "NotFound"
  | .found => "Found"
  | .notExists => "NotExists"
  | .logicalOr => "Or"
  | .logicalAnd => "And"
  | .sequence => "Sequence"
  | .newRowid => "NewRowid"
  | .insert => "Insert"
  | .isNull => "IsNull"
  | .notNull => "NotNull"
  | .ne => "Ne"
  | .eq => "Eq"
  | .gt => "Gt"
  | .le => "Le"
  | .lt => "Lt"
  | .ge => "Ge"
  | .insertInt => "InsertInt"
  | .bitAnd => "BitAnd"
  | .bitOr => "BitOr"
  | .shiftLeft => "ShiftLeft"
  | .shiftRight => "ShiftRight"
  | .add => "Add"
  | .subtract => "Subtract"
  | .multiply => "Multiply"
  | .divide => "Divide"
  | .remainder => "Remainder"
  | .concat => "Concat"
  | .delete => "Delete"
  | .bitNot => "BitNot"
  | .string8 => "String8"
  | .resetCount => "ResetCount"
  | .sorterCompare => "SorterCompare"
  | .sorterData => "SorterData"
  | .rowKey => "RowKey"
  | .rowData => "RowData"
  | .rowid => "Rowid"
  | .nullRow => "NullRow"
  | .last => "Last"
  | .sorterSort => "SorterSort"
  | .sort => "Sort"
  | .rewind => "Rewind"
  | .sorterInsert => "SorterInsert"
  | .idxInsert => "IdxInsert"
  | .idxDelete => "IdxDelete"
  | .idxRowid => "IdxRowid"
  | .idxLE => "IdxLE"
  | .idxGT => "IdxGT"
  | .idxLT => "IdxLT"
  | .idxGE => "IdxGE"
  | .destroy => "Destroy"
  | .clear => "Clear"
  | .resetSorter => "ResetSorter"
  | .createIndex => "CreateIndex"
  | .createTable => "CreateTable"
  | .parseSchema => "ParseSchema"
  | .loadAnalysis => "LoadAnalysis"
  | .dropTable => "DropTable"
  | .dropIndex => "DropIndex"
  | .dropTrigger => "DropTrigger"
  | .integrityCk => "IntegrityCk"
  | .rowSetAdd => "RowSetAdd"
  | .rowSetRead => "RowSetRead"
  | .rowSetTest => "RowSetTest"
  | .subprogram => "Program"
  | .frameParameter => "Param"
  | .real => "Real"
  | .fkCounter => "FkCounter"
  | .fkIfZero => "FkIfZero"
  | .memMax => "MemMax"
  | .ifPos => "IfPos"
  | .ifNeg => "IfNeg"
  | .ifZero => "IfZero"
  | .aggFinal => "AggFinal"
  | .incrVacuum => "IncrVacuum"
  | .expire => "Expire"
  | .tableLock => "TableLock"
  | .vBegin => "VBegin"
  | .vCreate => "VCreate"
  | .vDestroy => "VDestroy"
  | .vOpen => "VOpen"
  | .vColumn => "VColumn"
  | .vNext => "VNext"
  | .vRename => "VRename"
  | .pagecount => "Pagecount"
  | .maxPgcnt => "MaxPgcnt"
  | .init => "Init"
  | .noop => "Noop"
  | .explain => "Explain"

def code : Opcode → Nat
  | .function => 1
  | .savepoint => 2
  | .autoCommit => 3
  | .transaction => 4
  | .sorterNext => 5
  | .prevIfOpen => 6
  | .nextIfOpen => 7
  | .prev => 8
  | .next => 9
  | .aggStep => 10
  | .checkpoint => 11
  | .journalMode => 12
  | .vacuum => 13
  | .vFilter => 14
  | .vUpdate => 15
  | .goto => 16
  | .gosub => 17
  | .returnTo => 18
  | .logicalNot => 19
  | .initCoroutine => 20
  | .endCoroutine => 21
  | .yield => 22
  | .haltIfNull => 23
  | .halt => 24
  | .integer => 25
  | .int64 => 26
  | .string => 27
  | .null => 28
  | .softNull => 29
  | .blob => 30
  | .parameter => 31
  | .move => 32
  | .copy => 33
  | .sCopy => 34
  | .resultRow => 35
  | .collSeq => 36
  | .addImm => 37
  | .mustBeInt => 38
  | .realAffinity => 39
  | .cast => 40
  | .permutation => 41
  | .compare => 42
  | .jump => 43
  | .once => 44
  | .ifTrue => 45
  | .ifNot => 46
  | .column => 47
  | .affinity => 48
  | .makeRecord => 49
  | .count => 50
  | .readCookie => 51
  | .setCookie => 52
  | .reopenIdx => 53
  | .openRead => 54
  | .openWrite => 55
  | .openAutoindex => 56
  | .openEphemeral => 57
  | .sorterOpen => 58
  | .sequenceTest => 59
  | .openPseudo => 60
  | .close => 61
  | .seekLT => 62
  | .seekLE => 63
  | .seekGE => 64
  | .seekGT => 65
  | .seek => 66
  | .noConflict => 67
  | .notFound => 68
  | .found => 69
  | .notExists => 70
  | .logicalOr => 71
  | .logicalAnd => 72
  | .sequence => 73
  | .newRowid => 74
  | .insert => 75
  | .isNull => 76
  | .notNull => 77
  | .ne => 78
  | .eq => 79
  | .gt => 80
  | .le => 81
  | .lt => 82
  | .ge => 83
  | .insertInt => 84
  | .bitAnd => 85
  | .bitOr => 86
  | .shiftLeft => 87
  | .shiftRight => 88
  | .add => 89
  | .subtract => 90
  | .multiply => 91
  | .divide => 92
  | .remainder => 93
  | .concat => 94
  | .delete => 95
  | .bitNot => 96
  | .string8 => 97
  | .resetCount => 98
  | .sorterCompare => 99
  | .sorterData => 100
  | .rowKey => 101
  | .rowData => 102
  | .rowid => 103
  | .nullRow => 104
  | .last => 105
  | .sorterSort => 106
  | .sort => 107
  | .rewind => 108
  | .sorterInsert => 109
  | .idxInsert => 110
  | .idxDelete => 111
  | .idxRowid => 112
  | .idxLE => 113
  | .idxGT => 114
  | .idxLT => 115
  | .idxGE => 116
  | .destroy => 117
  | .clear => 118
  | .resetSorter => 119
  | .createIndex => 120
  | .createTable => 121
  | .parseSchema => 122
  | .loadAnalysis => 123
  | .dropTable => 124
  | .dropIndex => 125
  | .dropTrigger => 126
  | .integrityCk => 127
  | .rowSetAdd => 128
  | .rowSetRead => 129
  | .rowSetTest => 130
  | .subprogram => 131
  | .frameParameter => 132
  | .real => 133
  | .fkCounter => 134
  | .fkIfZero => 135
  | .memMax => 136
  | .ifPos => 137
  | .ifNeg => 138
  | .ifZero => 139
  | .aggFinal => 140
  | .incrVacuum => 141
  | .expire => 142
  | .tableLock => 143
  | .vBegin => 144
  | .vCreate => 145
  | .vDestroy => 146
  | .vOpen => 147
  | .vColumn => 148
  | .vNext => 149
  | .vRename => 150
  | .pagecount => 151
  | .maxPgcnt => 152
  | .init => 153
  | .noop => 154
  | .explain => 155

/-- Every instruction, by number. -/
def all : List Opcode :=
  [.function, .savepoint, .autoCommit, .transaction, .sorterNext, .prevIfOpen, .nextIfOpen,
    .prev, .next, .aggStep, .checkpoint, .journalMode, .vacuum, .vFilter, .vUpdate, .goto,
    .gosub, .returnTo, .logicalNot, .initCoroutine, .endCoroutine, .yield, .haltIfNull, .halt,
    .integer, .int64, .string, .null, .softNull, .blob, .parameter, .move, .copy, .sCopy,
    .resultRow, .collSeq, .addImm, .mustBeInt, .realAffinity, .cast, .permutation, .compare,
    .jump, .once, .ifTrue, .ifNot, .column, .affinity, .makeRecord, .count, .readCookie,
    .setCookie, .reopenIdx, .openRead, .openWrite, .openAutoindex, .openEphemeral, .sorterOpen,
    .sequenceTest, .openPseudo, .close, .seekLT, .seekLE, .seekGE, .seekGT, .seek, .noConflict,
    .notFound, .found, .notExists, .logicalOr, .logicalAnd, .sequence, .newRowid, .insert,
    .isNull, .notNull, .ne, .eq, .gt, .le, .lt, .ge, .insertInt, .bitAnd, .bitOr, .shiftLeft,
    .shiftRight, .add, .subtract, .multiply, .divide, .remainder, .concat, .delete, .bitNot,
    .string8, .resetCount, .sorterCompare, .sorterData, .rowKey, .rowData, .rowid, .nullRow,
    .last, .sorterSort, .sort, .rewind, .sorterInsert, .idxInsert, .idxDelete, .idxRowid, .idxLE,
    .idxGT, .idxLT, .idxGE, .destroy, .clear, .resetSorter, .createIndex, .createTable,
    .parseSchema, .loadAnalysis, .dropTable, .dropIndex, .dropTrigger, .integrityCk, .rowSetAdd,
    .rowSetRead, .rowSetTest, .subprogram, .frameParameter, .real, .fkCounter, .fkIfZero,
    .memMax, .ifPos, .ifNeg, .ifZero, .aggFinal, .incrVacuum, .expire, .tableLock, .vBegin,
    .vCreate, .vDestroy, .vOpen, .vColumn, .vNext, .vRename, .pagecount, .maxPgcnt, .init, .noop,
    .explain]

def ofName? (s : String) : Option Opcode := all.find? (·.name == s)

/-- The instructions that the machine can run, by name. -/
def runnable : List Opcode :=
  [.add, .affinity, .aggFinal, .aggStep, .blob, .cast, .clear, .close, .collSeq, .column,
    .compare, .concat, .copy, .createIndex, .createTable, .delete, .divide, .dropTable,
    .endCoroutine, .eq, .explain, .found, .function, .ge, .gosub, .goto, .gt, .halt, .idxGE,
    .idxGT, .idxInsert, .idxLE, .idxLT, .idxRowid, .ifTrue, .ifNot, .ifPos, .ifZero, .init,
    .initCoroutine, .insert, .insertInt, .integer, .isNull, .jump, .le, .lt, .makeRecord, .move,
    .multiply, .mustBeInt, .ne, .newRowid, .next, .nextIfOpen, .noConflict, .noop, .notExists,
    .notFound, .notNull, .null, .nullRow, .once, .openAutoindex, .openEphemeral, .openPseudo,
    .openRead, .openWrite, .parseSchema, .readCookie, .real, .realAffinity, .remainder,
    .resultRow, .returnTo, .rewind, .rowData, .rowKey, .rowSetAdd, .rowSetRead, .rowSetTest,
    .rowid, .sCopy, .seek, .seekGE, .seekGT, .seekLE, .seekLT, .sequence, .setCookie, .sort,
    .sorterData, .sorterInsert, .sorterNext, .sorterOpen, .sorterSort, .string, .string8,
    .subtract, .tableLock, .transaction, .parameter, .yield]

/-- The instructions whose second register is given back and marked as an integer beforehand. -/
def overwritesSecond : Opcode → Bool
  | .integer | .int64 | .real | .string8 | .string | .null | .blob
  | .parameter | .count | .readCookie | .sequence | .newRowid | .rowid | .idxRowid
  | .destroy | .createIndex | .createTable | .frameParameter | .journalMode | .pagecount | .maxPgcnt => true
  | _ => false

/-- The instructions that say themselves what they change, so that the rest stays known. -/
def keepsKnowledge : Opcode → Bool
  | .concat | .insert | .insertInt | .newRowid | .delete | .rowKey | .rowData | .close | .halt
  | .noConflict | .notFound | .found | .nullRow | .rewind | .rowid | .string | .string8
  | .sorterInsert | .idxInsert | .sorterData | .sorterNext | .tableLock | .transaction | .column
  | .aggFinal | .aggStep | .function | .goto | .openRead | .openWrite | .resultRow | .next
  | .eq | .ne | .lt | .le | .gt | .ge | .integer | .null | .mustBeInt | .copy | .notExists | .real
  | .realAffinity | .add | .subtract | .multiply | .divide | .remainder | .ifTrue | .ifNot | .isNull
  | .seekLT | .seekLE | .seekGE | .seekGT | .move | .ifZero | .idxRowid | .idxLE | .idxGT | .idxLT
  | .idxGE | .seek | .once | .sCopy | .affinity | .makeRecord | .gosub | .returnTo | .nextIfOpen
  | .sequence | .compare | .jump | .parameter | .collSeq | .notNull | .initCoroutine | .yield
  | .endCoroutine | .ifPos | .cast | .init => true
  | _ => false

end Opcode

end QueryMachine
