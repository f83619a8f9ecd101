/-!
# Opcodes

The first field of a stream frame says what the frame is.  Each stream has its own inductive type of
opcodes with the number of each; the reader of a number is the inverse, found by search.
-/

namespace LevelLink

/-! ### Object replication -/

/-- What an object frame announces. -/
inductive ObjectOp where
  | new | update | delete | ended
  deriving DecidableEq, Repr

namespace ObjectOp

def all : List ObjectOp := [new, update, delete, ended]

def code : ObjectOp → Int32
  | new => 0
  | update => 1
  | delete => 2
  | ended => 255

def ofCode? (v : Int32) : Option ObjectOp := all.find? fun op => op.code == v

@[simp] theorem ofCode?_code (op : ObjectOp) : ofCode? op.code = some op := by cases op <;> rfl

end ObjectOp

/-! ### File transfer -/

/-- What a transfer frame carries. -/
inductive TransferOp where
  | metadata | transfer | data | protocolError | opening | status | ended
  deriving DecidableEq, Repr

namespace TransferOp

def all : List TransferOp := [metadata, transfer, data, protocolError, opening, status, ended]

def code : TransferOp → Int32
  | metadata => 0
  | transfer => 1
  | data => 2
  | protocolError => 3
  | opening => 4
  | status => 244
  | ended => 255

def ofCode? (v : Int32) : Option TransferOp := all.find? fun op => op.code == v

@[simp] theorem ofCode?_code (op : TransferOp) : ofCode? op.code = some op := by cases op <;> rfl

end TransferOp

/-- The answer a status frame gives. -/
inductive TransferStatus where
  | accepted | refused
  deriving DecidableEq, Repr

namespace TransferStatus

def all : List TransferStatus := [accepted, refused]

def code : TransferStatus → Int32
  | accepted => 0
  | refused => 1

def ofCode? (v : Int32) : Option TransferStatus := all.find? fun s => s.code == v

@[simp] theorem ofCode?_code (s : TransferStatus) : ofCode? s.code = some s := by cases s <;> rfl

end TransferStatus

/-! ### Presence -/

/-- What happened to a user of the level. -/
inductive EventOp where
  | userConnected | userDisconnected | userCursorMoved | ended
  deriving DecidableEq, Repr

namespace EventOp

def all : List EventOp := [userConnected, userDisconnected, userCursorMoved, ended]

def code : EventOp → Int32
  | userConnected => 0
  | userDisconnected => 1
  | userCursorMoved => 2
  | ended => 255

def ofCode? (v : Int32) : Option EventOp := all.find? fun op => op.code == v

@[simp] theorem ofCode?_code (op : EventOp) : ofCode? op.code = some op := by cases op <;> rfl

end EventOp

/-! ### Plugins -/

/-- How far a scheduled plugin has come. -/
inductive PluginOp where
  | taskStarted | taskCompleted | streamEnded
  deriving DecidableEq, Repr

namespace PluginOp

def all : List PluginOp := [taskStarted, taskCompleted, streamEnded]

def code : PluginOp → Int32
  | taskStarted => 0
  | taskCompleted => 1
  | streamEnded => 255

def ofCode? (v : Int32) : Option PluginOp := all.find? fun op => op.code == v

@[simp] theorem ofCode?_code (op : PluginOp) : ofCode? op.code = some op := by cases op <;> rfl

end PluginOp
end LevelLink
