import BookingPlatform.Services.Notification

/-! Accounts, and the user a valid token stands for. -/

namespace BookingPlatform

set_option autoImplicit false

open Transact

section Payloads

/-- A registration body whose fields are within bounds, before `normalize_email`. -/
structure UserRegisterFields where
  name : String
  email : String
  password : String
  nameLength : 1 ≤ name.length ∧ name.length ≤ 255
  emailLength : 3 ≤ email.length ∧ email.length ≤ 255
  passwordLength : 8 ≤ password.length ∧ password.length ≤ 128

/-- `"@" in normalized and "." in normalized.split("@")[-1]`. -/
def hasEmailFormat (normalized : String) : Bool :=
  normalized.toList.contains '@' &&
    (normalized.toList.reverse.takeWhile fun c => c != '@').contains '.'

def UserRegister.normalizeEmail (amb : Ambient) (v : String) : Except Error String :=
  let normalized := amb.lower (amb.strip v)
  if hasEmailFormat normalized then .ok normalized
  else .error (.valueError "Invalid email address format")

def UserRegister.validate (amb : Ambient) (fields : UserRegisterFields) :
    Except Error UserRegister := do
  let email ← UserRegister.normalizeEmail amb fields.email
  pure ⟨fields.name, email, fields.password⟩

structure UserLoginFields where
  email : String
  password : String
  emailLength : email.length ≤ 255
  passwordLength : password.length ≤ 128

structure UserLogin where
  email : String
  password : String

def UserLogin.normalizeEmail (amb : Ambient) (v : String) : String := amb.lower (amb.strip v)

def UserLogin.validate (amb : Ambient) (fields : UserLoginFields) : UserLogin :=
  ⟨UserLogin.normalizeEmail amb fields.email, fields.password⟩

end Payloads

/-- `scalar_one_or_none`: two matching rows are an error. -/
def getUserByEmail (amb : Ambient) (email : String) : Service (Option User) := do
  let normalizedEmail := amb.lower (amb.strip email)
  let rows : List User ←
    Program.select (D := platform) (.usersByEmail amb.sqlLower normalizedEmail)
  match rows with
  | [] => pure none
  | [user] => pure (some user)
  | _ => throw .multipleResultsFound

def hashPassword (amb : Ambient) (password : String) : Service String :=
  Program.ofExcept (amb.hashpw password)

def newUser (amb : Ambient) (userIn : UserRegister) (hashedPw : String) : User where
  id := amb.uuid4
  name := userIn.name
  email := userIn.email
  role := .customer
  passwordHash := hashedPw

def registerUser (amb : Ambient) (userIn : UserRegister) : Service User := do
  let existing ← getUserByEmail amb userIn.email
  Program.refuseIf existing.isSome (http 409 "A user with this email address already exists")
  let hashedPw ← hashPassword amb userIn.password
  commitOr409 [.insertUser (newUser amb userIn hashedPw)] (getUser amb.uuid4)
    "A user with this email address already exists"

section Login

/-- `str.encode("utf-8")`. -/
def encode (s : String) : List UInt8 := s.toUTF8.data.toList

/-- The bcrypt package: hashes are the text they decode to, and both functions may
raise. -/
structure Bcrypt where
  Salt : Type
  hashpw : List UInt8 → Salt → Except Error String
  checkpw : List UInt8 → String → Except Error Bool

/-- The surroundings of a request that hashes with this salt. -/
def Ambient.hashing (amb : Ambient) (bcrypt : Bcrypt) (salt : bcrypt.Salt) : Ambient :=
  { amb with hashpw := fun password => bcrypt.hashpw (encode password) salt }

/-- A ValueError of `checkpw` counts as a wrong password. -/
def verifyPassword (bcrypt : Bcrypt) (plainPassword hashedPassword : String) :
    Except Error Bool :=
  match bcrypt.checkpw (encode plainPassword) hashedPassword with
  | .ok matched => .ok matched
  | .error (.valueError _) => .ok false
  | .error e => .error e

def authenticateUser (amb : Ambient) (bcrypt : Bcrypt) (credentials : UserLogin) :
    Service User := do
  let user ← getUserByEmail amb credentials.email
  match user with
  | none => throw (http 401 "Invalid email or password")
  | some user => do
    let verified ← Program.ofExcept (verifyPassword bcrypt credentials.password user.passwordHash)
    if verified then pure user else throw (http 401 "Invalid email or password")

end Login

/-- `get_current_user`, once the token has been decoded to its subject. -/
def getCurrentUser (userId : UUID) : Service User := do
  match ← getUser userId with
  | some user => pure user
  | none => throw (http 401 "User associated with token does not exist")

end BookingPlatform
