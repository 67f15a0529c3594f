import AlmenaMediator.Dispatch.Identity
import AlmenaMediator.Library.Crashes
import Mathlib.Logic.Function.Basic

/-!
# The key file

`identity.rs`: where a mediator keeps its private keys between its starts. Starting and rotating are
programs over the file system, one process at a time, which may be killed between any two calls.
Every call may fail; a write that fails leaves any beginning of what it was to write. What the
system has written stays written: a loss of power before it reaches the disk is left out, and so are
directories.

## Main results

* `write_survives`: wherever writing the keys stops, the key file is the one before or the whole new
  one;
* `key_file_refines`: the sessions of mediators on one key file are steps of an identity that is
  held;
* `identity_kept`: the key file can always be read, and the keys outlive crashes, until they are
  rotated.
-/

namespace Dispatch

open Didcomm

/-! ## Paths -/

/-- `std::path::Path` with a file name. -/
structure FilePath where
  directory : String
  stem : String
  extension : Option String

namespace FilePath

/-- The path as the system reads it. -/
def text (path : FilePath) : String :=
  (if path.directory = "" then "" else path.directory ++ "/") ++ path.stem ++
    ((path.extension.map fun extension => "." ++ extension).getD "")

/-- `Path::with_extension`. -/
def withExtension (extension : String) (path : FilePath) : FilePath :=
  { path with extension := some extension }

/-- A path with another extension is another path. -/
theorem text_withExtension_ne {path : FilePath} {extension : String}
    (h : path.extension ≠ some extension) : (path.withExtension extension).text ≠ path.text := by
  intro heq
  rw [text, text, withExtension, String.append_right_inj] at heq
  cases hpath : path.extension with
  | none =>
    have hlength := congrArg (fun text => text.toList.length) heq
    simp [hpath] at hlength
  | some other =>
    rw [hpath] at heq h
    exact h (congrArg some ((String.append_right_inj _).mp heq).symm)

end FilePath

/-! ## The file system -/

/-- `anyhow::Error`, by where it comes from. -/
inductive Failure
  | io (text : String)
  | json (text : String)
  | didcomm (error : Error)
  /-- `anyhow::ensure!`. -/
  | ensure (text : String)
  | context (text : String) (cause : Failure)

/-- What a process calls to start or to rotate. -/
inductive FileOp
  /-- `Path::exists`. -/
  | exists_ (path : String)
  /-- `fs::read`. -/
  | read (path : String)
  /-- `fs::create_dir_all`. -/
  | createDirAll (directory : String)
  /-- `OpenOptions::open`, to write a file that is created or truncated. -/
  | openTruncate (path : String)
  /-- `write_all` to the file that was opened. -/
  | writeAll (path : String) (bytes : Bytes)
  /-- `fs::rename`. -/
  | rename (source target : String)
  /-- `SecretKey::generate`. -/
  | generate (curve : Curve)

/-- What a call is answered with; a failed one of the file system with its error's text. -/
@[reducible] def FileOp.Reply : FileOp → Type
  | exists_ _ => Bool
  | read _ => Except String Bytes
  | createDirAll _ | openTruncate _ | writeAll .. | rename .. => Except String Unit
  | generate curve => Result { key : SecretKey // key.curve = curve }

abbrev Files : Interface where
  Op := FileOp
  Reply := FileOp.Reply

/-- What the files hold, by their paths. -/
abbrev Disk : Type := String → Option Bytes

namespace Disk

/-- More bytes at the end of a file. -/
def append (path : String) (bytes : Bytes) (disk : Disk) : Disk :=
  Function.update disk path ((disk path).map (· ++ bytes))

/-- A file goes to another place, at once. -/
def move (source target : String) (disk : Disk) : Disk :=
  if source = target then disk else Function.update
    (Function.update disk target (disk source)) source none

/-- Appending to a file puts the bytes at its end, where there is a file. -/
@[simp] theorem append_self (path : String) (bytes : Bytes) (disk : Disk) :
    disk.append path bytes path = (disk path).map (· ++ bytes) := Function.update_self ..

/-- Appending to one file leaves the others as they were. -/
theorem append_of_ne {path other : String} (h : other ≠ path) (bytes : Bytes) (disk : Disk) :
    disk.append path bytes other = disk other := Function.update_of_ne h ..

/-- After a move the target is what the source was. -/
theorem move_target {source target : String} (h : source ≠ target) (disk : Disk) :
    disk.move source target target = disk source := by
  rw [move, if_neg h, Function.update_of_ne h.symm, Function.update_self]

/-- What calls are answered. Any of them may fail, and `Path::exists` takes what it cannot look up,
which the `hidden` files may be, for missing. -/
inductive Answers (scalar : Curve → Bytes → Bool)
    (hidden : Set String) : Disk → Call Files → Disk → Prop
  | found (disk : Disk) (path : String) (bytes : Bytes) : disk path = some bytes →
      Answers scalar hidden disk ⟨.exists_ path, true⟩ disk
  | missing (disk : Disk) (path : String) : disk path = none ∨ path ∈ hidden →
      Answers scalar hidden disk ⟨.exists_ path, false⟩ disk
  | read (disk : Disk) (path : String) (bytes : Bytes) : disk path = some bytes →
      Answers scalar hidden disk ⟨.read path, .ok bytes⟩ disk
  | readFailed (disk : Disk) (path error : String) :
      Answers scalar hidden disk ⟨.read path, .error error⟩ disk
  | createDirAll (disk : Disk) (directory : String) (answer : Except String Unit) :
      Answers scalar hidden disk ⟨.createDirAll directory, answer⟩ disk
  | openTruncate (disk : Disk) (path : String) :
      Answers scalar hidden disk ⟨.openTruncate path, .ok ()⟩ (Function.update disk path (some []))
  | openFailed (disk : Disk) (path error : String) :
      Answers scalar hidden disk ⟨.openTruncate path, .error error⟩ disk
  | writeAll (disk : Disk) (path : String) (bytes : Bytes) :
      Answers scalar hidden disk ⟨.writeAll path bytes, .ok ()⟩ (disk.append path bytes)
  | writeFailed (disk : Disk) (path error : String) (bytes written : Bytes) : written <+: bytes →
      Answers scalar hidden disk ⟨.writeAll path bytes, .error error⟩ (disk.append path written)
  | rename (disk : Disk) (source target : String) : (disk source).isSome →
      Answers scalar hidden disk ⟨.rename source target, .ok ()⟩ (disk.move source target)
  | renameFailed (disk : Disk) (source target error : String) :
      Answers scalar hidden disk ⟨.rename source target, .error error⟩ disk
  | generate (disk : Disk) (curve : Curve) (draws : List Bytes)
      (key : { key : SecretKey // key.curve = curve }) :
      SecretKey.generate scalar curve draws = some key.val →
      Answers scalar hidden disk ⟨.generate curve, .ok key⟩ disk
  | generateFailed (disk : Disk) (curve : Curve) (error : Error) :
      Answers scalar hidden disk ⟨.generate curve, .error error⟩ disk

end Disk

/-! ## Reading and writing keys -/

/-- On-disk form of the mediator's private keys. -/
structure KeyFile where
  ed25519 : Jwk
  x25519 : Jwk
  p384 : Jwk

section Programs

variable (prim : Primitives) (scalar : Curve → Bytes → Bool) (serde : Serde KeyFile)
    (path : FilePath)

/-- A call of the file system. -/
def onDisk {α : Type} (x : Program Files (Except String α)) : ExceptT Failure (Program Files) α :=
  ExceptT.mk (x >>= fun answer => pure (answer.mapError .io))

/-- `with_context`. -/
def withContext {α : Type} (text : String) (x : ExceptT Failure (Program Files) α) :
    ExceptT Failure (Program Files) α :=
  ExceptT.mk (x.run >>= fun answer => pure (answer.mapError (.context text)))

/-- A result that no call is made for. -/
def given {α : Type} (result : Except Failure α) : ExceptT Failure (Program Files) α :=
  ExceptT.mk (pure result)

namespace Keys

/-- A generated key. -/
def generateKey (curve : Curve) : ExceptT Failure (Program Files)
    { key : SecretKey // key.curve = curve } :=
  ExceptT.mk (Program.request (I := Files) (.generate curve) >>= fun answer =>
    pure (answer.mapError .didcomm))

def generate : ExceptT Failure (Program Files) Keys := do
  let ed25519 ← generateKey .ed25519
  let x25519 ← generateKey .x25519
  let p384 ← generateKey .p384
  pure ⟨ed25519, x25519, p384, ed25519.property, x25519.property, p384.property⟩

/-- Reads a key that must be of a curve. -/
def readKey (jwk : Jwk) (curve : Curve) :
    Except Failure { key : SecretKey // key.curve = curve } := do
  let key ← (SecretKey.fromJwk prim scalar jwk).mapError .didcomm
  if h : key.curve = curve then pure ⟨key, h⟩
  else .error (.ensure ("expected a " ++ curve.jwkCrv ++ " key"))

/-- What a key file is read as. -/
def ofBytes (bytes : Bytes) : Except Failure Keys := do
  let file ← (serde.fromSlice bytes).mapError .json
  let ed25519 ← readKey prim scalar file.ed25519 .ed25519
  let x25519 ← readKey prim scalar file.x25519 .x25519
  let p384 ← readKey prim scalar file.p384 .p384
  pure ⟨ed25519, x25519, p384, ed25519.property, x25519.property, p384.property⟩

/-- `Keys::read`. -/
def read : ExceptT Failure (Program Files) Keys := do
  let bytes ← onDisk (Program.request (I := Files) (.read path.text))
  given (ofBytes prim scalar serde bytes)

/-- The key file of keys; `serde` writes it as `serde_json::to_vec_pretty` does. -/
def toBytes (keys : Keys) : Bytes :=
  serde.toVec ⟨keys.ed25519.toJwk prim, keys.x25519.toJwk prim, keys.p384.toJwk prim⟩

/-- The keys are written to a temporary file, which takes the place of the key file. -/
def replaceFile (keys : Keys) : ExceptT Failure (Program Files) Unit := do
  let tmp := (path.withExtension "tmp").text
  onDisk (Program.request (I := Files) (.openTruncate tmp))
  onDisk (Program.request (I := Files) (.writeAll tmp (keys.toBytes prim serde)))
  onDisk (Program.request (I := Files) (.rename tmp path.text))

/-- `Keys::write`. -/
def write (keys : Keys) : ExceptT Failure (Program Files) Unit := do
  if path.directory ≠ "" then onDisk (Program.request (I := Files) (.createDirAll path.directory))
  replaceFile prim serde path keys

end Keys

namespace Identity

/-- `Identity::load_or_create`. -/
def loadOrCreate (publicUrl : String) : ExceptT Failure (Program Files) Identity := do
  let keys ←
    if ← liftM (Program.request (I := Files) (.exists_ path.text)) then
      withContext ("reading mediator keys from " ++ path.text) (Keys.read prim scalar serde path)
    else do
      let keys ← Keys.generate
      withContext ("writing mediator keys to " ++ path.text) (keys.write prim serde path)
      pure keys
  given ((Identity.new prim keys publicUrl).mapError .didcomm)

/-- `Identity::rotate`. -/
def rotate : ExceptT Failure (Program Files) Unit := do
  if ← liftM (Program.request (I := Files) (.exists_ path.text)) then do
    let keys ← Keys.generate
    withContext ("writing mediator keys to " ++ path.text) (keys.write prim serde path)
  else given (.error (.ensure ("no mediator keys at " ++ path.text ++ " to rotate")))

end Identity

/-- What the binary is called for. -/
inductive Command
  | start (publicUrl : String)
  | rotateKeys

/-- How it ends. -/
inductive Ending
  | started (result : Except Failure Identity)
  | rotated (result : Except Failure Unit)

/-- What a command does to the key file. -/
def Command.program : Command → Program Files Ending
  | start publicUrl => do
    let result ← (Identity.loadOrCreate prim scalar serde path publicUrl).run
    pure (.started result)
  | rotateKeys => do
    let result ← (Identity.rotate prim serde path).run
    pure (.rotated result)

end Programs

/-! ## What is read back -/

section

variable {prim : Primitives} {scalar : Curve → Bytes → Bool} {serde : Serde KeyFile}
    {path : FilePath} {keys : Keys} {disk disk' : Disk}

/-- Keys that were generated or read: each is a private key of its curve. -/
structure Keys.Valid (scalar : Curve → Bytes → Bool) (keys : Keys) : Prop where
  ed25519 : SecretKey.fromBytes scalar keys.ed25519.curve keys.ed25519.bytes = .ok keys.ed25519
  x25519 : SecretKey.fromBytes scalar keys.x25519.curve keys.x25519.bytes = .ok keys.x25519
  p384 : SecretKey.fromBytes scalar keys.p384.curve keys.p384.bytes = .ok keys.p384

/-- The key file has all of some keys. -/
def HasKeys (prim : Primitives) (scalar : Curve → Bytes → Bool) (serde : Serde KeyFile)
    (path : FilePath) (disk : Disk) : Prop :=
  ∃ keys : Keys, keys.Valid scalar ∧ disk path.text = some (keys.toBytes prim serde)

/-- The key file is missing, or has all of some keys. -/
def KeysIntact (prim : Primitives) (scalar : Curve → Bytes → Bool) (serde : Serde KeyFile)
    (path : FilePath) (disk : Disk) : Prop :=
  disk path.text = none ∨ HasKeys prim scalar serde path disk

/-- A key is read back from its JWK, on the curve it must be of. -/
theorem Keys.readKey_toJwk {curve : Curve} {key : SecretKey}
    (hvalid : SecretKey.fromBytes scalar key.curve key.bytes = .ok key)
    (hcurve : key.curve = curve) :
    Keys.readKey prim scalar (key.toJwk prim) curve = .ok ⟨key, hcurve⟩ := by
  rw [readKey, SecretKey.fromJwk_toJwk hvalid]
  exact dif_pos hcurve

/-- Keys are read back from their key file. -/
theorem Keys.ofBytes_toBytes (hserde : ∀ file, serde.fromSlice (serde.toVec file) = .ok file)
    (hvalid : keys.Valid scalar) :
    Keys.ofBytes prim scalar serde (keys.toBytes prim serde) = .ok keys := by
  have hed25519 := @readKey_toJwk prim _ _ _ hvalid.ed25519 keys.ed25519_curve
  have hx25519 := @readKey_toJwk prim _ _ _ hvalid.x25519 keys.x25519_curve
  have hp384 := @readKey_toJwk prim _ _ _ hvalid.p384 keys.p384_curve
  refine bind_eq_ok.mpr ⟨⟨keys.ed25519.toJwk prim, keys.x25519.toJwk prim,
    keys.p384.toJwk prim⟩, ?_, ?_⟩
  · rw [toBytes, hserde]
    rfl
  · exact bind_eq_ok.mpr ⟨_, hed25519, bind_eq_ok.mpr ⟨_, hx25519, bind_eq_ok.mpr ⟨_, hp384, rfl⟩⟩⟩

/-- Different keys have different key files. -/
theorem Keys.toBytes_inj {keys' : Keys}
    (hserde : ∀ file, serde.fromSlice (serde.toVec file) = .ok file) (hvalid : keys.Valid scalar)
    (hvalid' : keys'.Valid scalar) (h : keys.toBytes prim serde = keys'.toBytes prim serde) :
    keys = keys' := by
  have hread := @ofBytes_toBytes prim scalar serde keys hserde hvalid
  rw [h, ofBytes_toBytes hserde hvalid'] at hread
  exact (Except.ok.inj hread).symm

/-- An error of another kind is still an error. -/
theorem mapError_eq_ok {ε ε' α : Type} {result : Except ε α} {f : ε → ε'} {a : α} :
    result.mapError f = .ok a ↔ result = .ok a := by
  cases result <;> simp [Except.mapError]

/-! ## Where a process may stop -/

variable {hidden : Set String} {crash : Disk → Prop} {α : Type}

/-- A disk operation survives a crash where what it answers and leaves does. -/
@[simp] theorem survives_onDisk {x : Program Files (Except String α)}
    {post : Except Failure α → Disk → Prop} :
    (onDisk x).run.Survives (Disk.Answers scalar hidden) crash post disk ↔
      x.Survives (Disk.Answers scalar hidden) crash
        (fun answer t => crash t ∧ post (answer.mapError .io) t) disk := Program.survives_bind

/-- Adding context to a failure adds it to what is left, and changes nothing on the disk. -/
@[simp] theorem survives_withContext {text : String} {x : ExceptT Failure (Program Files) α}
    {post : Except Failure α → Disk → Prop} :
    (withContext text x).run.Survives (Disk.Answers scalar hidden) crash post disk ↔
      x.run.Survives (Disk.Answers scalar hidden) crash
        (fun answer t => crash t ∧ post (answer.mapError (.context text)) t) disk :=
  Program.survives_bind

/-- A result that is given survives a crash where the disk does. -/
@[simp] theorem survives_given {result : Except Failure α} {post : Except Failure α → Disk → Prop} :
    (given result).run.Survives (Disk.Answers scalar hidden) crash post disk ↔
      crash disk ∧ post result disk :=
  Iff.rfl

/-- A program that cannot fail survives in a failing one what it survives by itself. -/
@[simp] theorem survives_liftM {x : Program Files α} {post : Except Failure α → Disk → Prop} :
    Program.Survives (Disk.Answers scalar hidden) crash
        (ExceptT.run (liftM x : ExceptT Failure (Program Files) α)) post disk ↔
      x.Survives (Disk.Answers scalar hidden) crash (fun a t => crash t ∧ post (.ok a) t) disk :=
  Program.survives_bind

/-- Generating a key leaves the files alone. -/
theorem Keys.generateKey_survives (curve : Curve) (hcrash : crash disk) :
    (Keys.generateKey curve).run.Survives (Disk.Answers scalar hidden) crash
      (fun result t => t = disk ∧ ∀ key : { key : SecretKey // key.curve = curve },
        result = .ok key → SecretKey.fromBytes scalar key.val.curve
          key.val.bytes = .ok key.val) disk := by
  refine Program.survives_bind.mpr ⟨hcrash, fun r t h => ?_⟩
  cases h with
  | generate _ draws key hkey =>
    refine ⟨hcrash, hcrash, rfl, fun key' heq => ?_⟩
    obtain rfl := Except.ok.inj heq
    exact (SecretKey.generate_eq_some hkey).2
  | generateFailed _ error => exact ⟨hcrash, hcrash, rfl, fun key heq => by cases heq⟩

/-- Generating keys leaves the files alone. -/
theorem Keys.generate_survives (hcrash : crash disk) :
    Keys.generate.run.Survives (Disk.Answers scalar hidden) crash
      (fun result t => t = disk ∧ ∀ keys, result = .ok keys → keys.Valid scalar) disk := by
  have hstop : ∀ {e : Failure}, ∀ keys : Keys, Except.error e = .ok keys → keys.Valid scalar :=
    fun keys heq => by cases heq
  rw [Keys.generate, Program.survives_exceptT_bind]
  -- each generation may fail, and none touches the disk
  refine (generateKey_survives .ed25519 hcrash).mono (fun _ h => h) fun result t _ => ?_
  rintro ⟨rfl, hed25519⟩
  cases result with
  | error e => exact ⟨rfl, hstop⟩
  | ok ed25519 =>
    refine Program.survives_exceptT_bind.mpr ?_
    refine (generateKey_survives .x25519 hcrash).mono (fun _ h => h) fun result t _ => ?_
    rintro ⟨rfl, hx25519⟩
    cases result with
    | error e => exact ⟨rfl, hstop⟩
    | ok x25519 =>
      refine Program.survives_exceptT_bind.mpr ?_
      refine (generateKey_survives .p384 hcrash).mono (fun _ h => h) fun result t _ => ?_
      rintro ⟨rfl, hp384⟩
      cases result with
      | error e => exact ⟨rfl, hstop⟩
      | ok p384 =>
        refine ⟨hcrash, rfl, fun keys heq => ?_⟩
        obtain rfl := Except.ok.inj heq
        exact ⟨hed25519 _ rfl, hx25519 _ rfl, hp384 _ rfl⟩

/-- Reading keys leaves the files alone, and reads what the key file has. -/
theorem Keys.read_survives (hcrash : crash disk) :
    (Keys.read prim scalar serde path).run.Survives (Disk.Answers scalar hidden) crash
      (fun result t => t = disk ∧ ∀ keys, result = .ok keys → ∃ bytes, disk path.text = some bytes ∧
        Keys.ofBytes prim scalar serde bytes = .ok keys) disk := by
  rw [Keys.read, Program.survives_exceptT_bind, survives_onDisk]
  refine ⟨hcrash, fun r t h => ?_⟩
  cases h with
  | read _ bytes hbytes => exact ⟨hcrash, hcrash, hcrash, rfl, fun keys hkeys =>
      ⟨bytes, hbytes, hkeys⟩⟩
  | readFailed _ error => exact ⟨hcrash, hcrash, rfl, fun keys hkeys => by cases hkeys⟩

/-- The key file after keys were written, or were not. -/
def afterWrite (before : Option Bytes) (bytes : Bytes) : Except Failure Unit → Option Bytes
  | .ok () => some bytes
  | .error _ => before

/-- Replacing the key file is one step: the rename. -/
theorem Keys.replaceFile_survives (htmp : path.extension ≠ some "tmp") {before : Option Bytes}
    (hbefore : disk path.text = before) :
    (keys.replaceFile prim serde path).run.Survives (Disk.Answers scalar hidden)
      (fun t => t path.text = before ∨ t path.text = some (keys.toBytes prim serde))
      (fun result t => t path.text = afterWrite before (keys.toBytes prim serde) result) disk := by
  have hne := path.text_withExtension_ne htmp
  rw [replaceFile]
  generalize (path.withExtension "tmp").text = tmp at hne
  simp only [Program.survives_exceptT_bind, survives_onDisk]
  refine ⟨.inl hbefore, fun r t h => ?_⟩
  cases h with
  | openFailed _ error => exact ⟨.inl hbefore, .inl hbefore, hbefore⟩
  | openTruncate _ =>
    have hopened : Function.update disk tmp (some []) path.text = before := by
      rw [Function.update_of_ne hne.symm, hbefore]
    refine ⟨.inl hopened, .inl hopened, .inl hopened, fun r t h => ?_⟩
    -- until the rename only the temporary file is written
    have hkept : ∀ bytes, Disk.append tmp bytes
      (Function.update disk tmp (some [])) path.text = before :=
      fun bytes => (Disk.append_of_ne hne.symm bytes _).trans hopened
    cases h with
    | writeFailed _ error _ part hpart => exact ⟨.inl (hkept part), .inl (hkept part), hkept part⟩
    | writeAll _ bytes =>
      refine ⟨.inl (hkept _), .inl (hkept _), .inl (hkept _), fun r t h => ?_⟩
      cases h with
      | renameFailed _ _ error => exact ⟨.inl (hkept _), .inl (hkept _), hkept _⟩
      | rename =>
        -- the rename puts the whole file in place at once
        have hmoved : Disk.move tmp path.text (Disk.append tmp (keys.toBytes prim serde)
            (Function.update disk tmp (some []))) path.text = some (keys.toBytes prim serde) := by
          rw [Disk.move_target hne, Disk.append_self, Function.update_self]
          rfl
        exact ⟨.inr hmoved, .inr hmoved, hmoved⟩

/-- Wherever writing the keys stops, the key file is the one before or the whole new one. -/
theorem Keys.write_survives (htmp : path.extension ≠ some "tmp") :
    (keys.write prim serde path).run.Survives (Disk.Answers scalar hidden)
      (fun t => t path.text = disk path.text ∨ t path.text = some (keys.toBytes prim serde))
      (fun result t => t path.text = afterWrite (disk path.text) (keys.toBytes prim serde) result)
        disk := by
  rw [Keys.write]
  split_ifs
  · rw [Program.survives_exceptT_bind, survives_onDisk]
    refine ⟨.inl rfl, fun r t h => ?_⟩
    cases h with
    | createDirAll =>
      cases r with
      | ok u => exact ⟨.inl rfl, .inl rfl, replaceFile_survives htmp rfl⟩
      | error e => exact ⟨.inl rfl, .inl rfl, rfl⟩
  · exact replaceFile_survives htmp rfl

/-- Wherever a start stops, the key file is the one before, or there was none to be seen and it has
new keys; the identity is of the keys that are read from it. -/
theorem Identity.loadOrCreate_survives (hserde : ∀ file,
    serde.fromSlice (serde.toVec file) = .ok file) (htmp : path.extension ≠ some "tmp")
    (publicUrl : String) :
    (Identity.loadOrCreate prim scalar serde path publicUrl).run.Survives
      (Disk.Answers scalar hidden)
      (fun t => t path.text = disk path.text ∨ (disk path.text = none ∨ path.text ∈ hidden) ∧
        HasKeys prim scalar serde path t)
      (fun result t => ∀ identity, result = .ok identity → ∃ keys bytes,
        Identity.new prim keys publicUrl = .ok identity ∧ t path.text = some bytes ∧
          Keys.ofBytes prim scalar serde bytes = .ok keys) disk := by
  rw [Identity.loadOrCreate]
  simp only [Program.survives_exceptT_bind, survives_liftM]
  refine ⟨.inl rfl, fun found t h => ?_⟩
  cases h with
  -- the file is there and is read
  | found _ bytes hbytes =>
    refine ⟨.inl rfl, .inl rfl, ?_⟩
    rw [if_pos rfl, Program.survives_exceptT_bind, survives_withContext]
    refine (Keys.read_survives (.inl rfl)).mono (fun _ h => h) fun result t hcrash => ?_
    rintro ⟨rfl, hread⟩
    refine ⟨hcrash, ?_⟩
    cases result with
    | error e => exact fun identity h => by cases h
    | ok keys =>
      obtain ⟨bytes', hbytes', hkeys⟩ := hread keys rfl
      exact ⟨hcrash, fun identity h => ⟨keys, bytes', mapError_eq_ok.mp h, hbytes', hkeys⟩⟩
  -- the file is not seen: new keys are generated and written
  | missing _ hmissing =>
    refine ⟨.inl rfl, .inl rfl, ?_⟩
    rw [if_neg Bool.false_ne_true, Program.survives_exceptT_bind]
    refine (Keys.generate_survives (.inl rfl)).mono (fun _ h => h) fun result t hcrash => ?_
    rintro ⟨rfl, hvalid⟩
    cases result with
    | error e => exact fun identity h => by cases h
    | ok keys =>
      have hkeys := hvalid keys rfl
      simp only [Program.survives_exceptT_bind, survives_withContext]
      refine (Keys.write_survives htmp).mono
        (fun t h => h.imp_right fun hnew => ⟨hmissing, keys, hkeys, hnew⟩)
        fun result t hcrash hwritten => ?_
      have hhas : t path.text = some (keys.toBytes prim serde) → HasKeys prim scalar serde path t :=
        fun hnew => ⟨keys, hkeys, hnew⟩
      have hstop := hcrash.imp_right fun hnew => And.intro hmissing (hhas hnew)
      refine ⟨hstop, ?_⟩
      cases result with
      | error e => exact fun identity h => by cases h
      | ok u =>
        refine ⟨hstop, hstop, fun identity h => ?_⟩
        exact ⟨keys, _, mapError_eq_ok.mp h, hwritten, Keys.ofBytes_toBytes hserde hkeys⟩

/-- Wherever a rotation stops, the key file is the one before or has new keys; it has new ones after
a rotation that succeeds, and the ones before after one that fails. -/
theorem Identity.rotate_survives (htmp : path.extension ≠ some "tmp") :
    (Identity.rotate prim serde path).run.Survives (Disk.Answers scalar hidden)
      (fun t => t path.text = disk path.text ∨ (disk path.text).isSome ∧
        HasKeys prim scalar serde path t)
        (fun result t => (result = .ok () → (disk path.text).isSome ∧
          HasKeys prim scalar serde path t) ∧ ∀ failure, result = .error failure →
            t path.text = disk path.text) disk := by
  have hfailed : ∀ {failure : Failure} {t : Disk}, t path.text = disk path.text →
      (Except.error failure = Except.ok () → (disk path.text).isSome ∧
        HasKeys prim scalar serde path t) ∧
        ∀ failure', Except.error failure = Except.error (α := Unit) failure' →
          t path.text = disk path.text :=
    fun hsame => ⟨(fun h => by cases h), fun _ _ => hsame⟩
  rw [Identity.rotate]
  simp only [Program.survives_exceptT_bind, survives_liftM]
  refine ⟨.inl rfl, fun found t h => ?_⟩
  cases h with
  -- new keys replace those of the file
  | found _ bytes hbytes =>
    refine ⟨.inl rfl, .inl rfl, ?_⟩
    rw [if_pos rfl, Program.survives_exceptT_bind]
    refine (Keys.generate_survives (.inl rfl)).mono (fun _ h => h) fun result t hcrash => ?_
    rintro ⟨rfl, hvalid⟩
    cases result with
    | error e => exact hfailed rfl
    | ok keys =>
      have hkeys := hvalid keys rfl
      have hsome : (t path.text).isSome := by rw [hbytes]; rfl
      refine survives_withContext.mpr ?_
      refine (Keys.write_survives htmp).mono
        (fun t h => h.imp_right fun hnew => ⟨hsome, keys, hkeys, hnew⟩)
        fun result t hcrash hwritten => ?_
      refine ⟨hcrash.imp_right fun hnew => ⟨hsome, keys, hkeys, hnew⟩, ?_⟩
      cases result with
      | error e => exact ⟨(fun h => by cases h), fun _ _ => hwritten⟩
      | ok u => exact ⟨fun _ => ⟨hsome, keys, hkeys, hwritten⟩, fun failure h => by cases h⟩
  | missing _ hmissing =>
    exact ⟨.inl rfl, .inl rfl, .inl rfl, hfailed rfl⟩

/-! ## The identity that is held -/

/-- A session of a mediator or of its `rotate-keys`. -/
abbrev KeySession : Type := Program.Session Files Command Ending

/-- What happens to the keys of a mediator, whatever the file system does. -/
inductive HeldStep (prim : Primitives) (scalar : Curve → Bytes → Bool) :
    Option Keys → KeySession → Option Keys → Prop
  /-- The keys stay; an identity is of those. -/
  | kept (held : Option Keys) (session : KeySession) :
      (∀ identity, session.outcome = some (.started (.ok identity)) →
        ∃ keys publicUrl, held = some keys ∧ session.task = .start publicUrl ∧
          Identity.new prim keys publicUrl = .ok identity) →
      session.outcome ≠ some (.rotated (.ok ())) → HeldStep prim scalar held session held
  /-- The first start that gets so far makes keys; an identity is of those. -/
  | created (keys : Keys) (publicUrl : String) (calls : List (Call Files))
      (outcome : Option Ending) :
      keys.Valid scalar → (∀ identity, outcome = some (.started (.ok identity)) →
        Identity.new prim keys publicUrl = .ok identity) →
      outcome ≠ some (.rotated (.ok ())) →
      HeldStep prim scalar none ⟨.start publicUrl, calls, outcome⟩ (some keys)
  /-- A rotation that is killed or succeeds may replace the keys. -/
  | replaced (old keys : Keys) (calls : List (Call Files)) (outcome : Option Ending) :
      keys.Valid scalar → (∀ ending ∈ outcome, ending = .rotated (.ok ())) →
      HeldStep prim scalar (some old) ⟨.rotateKeys, calls, outcome⟩ (some keys)

/-- The key file has the keys that are held, and is not there when none are. -/
def Holds (prim : Primitives) (scalar : Curve → Bytes → Bool) (serde : Serde KeyFile)
    (path : FilePath) (held : Option Keys) (disk : Disk) : Prop :=
  disk path.text = held.map (Keys.toBytes prim serde) ∧ ∀ keys ∈ held, keys.Valid scalar

variable {held held' : Option Keys} {session : KeySession} {sessions : List KeySession}

/-- Keys that the key file is read as are held. -/
theorem Holds.eq_some (hserde : ∀ file, serde.fromSlice (serde.toVec file) = .ok file)
    (h : Holds prim scalar serde path held disk) {bytes : Bytes}
    (hbytes : disk path.text = some bytes)
    (hread : Keys.ofBytes prim scalar serde bytes = .ok keys) : held = some keys := by
  rw [h.1] at hbytes
  obtain ⟨keys', rfl, rfl⟩ := Option.map_eq_some_iff.mp hbytes
  rw [Keys.ofBytes_toBytes hserde (h.2 keys' rfl), Except.ok.injEq] at hread
  rw [hread]

/-- The key file has the keys that a session has made. -/
theorem Holds.some (hvalid : keys.Valid scalar)
    (h : disk path.text = some (keys.toBytes prim serde)) :
    Holds prim scalar serde path (some keys) disk :=
  ⟨h, fun _ hkeys => Option.some_inj.mp hkeys ▸ hvalid⟩

/-- No keys are held when there is no key file, and some when there is one. -/
theorem Holds.isSome_eq (h : Holds prim scalar serde path held disk) :
    held.isSome = (disk path.text).isSome := by
  rw [h.1, Option.isSome_map]

/-- A start is a step of what is held. -/
theorem start_step (hserde : ∀ file, serde.fromSlice (serde.toVec file) = .ok file)
    (htmp : path.extension ≠ some "tmp") (hseen : path.text ∉ hidden)
    (hholds : Holds prim scalar serde path held disk) {publicUrl : String}
    {calls : List (Call Files)} {outcome : Option Ending}
    (hsession : Program.Attempts (Disk.Answers scalar hidden)
      (Command.program prim scalar serde path (.start publicUrl)) disk calls outcome disk') :
    ∃ held', HeldStep prim scalar held ⟨.start publicUrl, calls, outcome⟩ held' ∧
      Holds prim scalar serde path held' disk' := by
  obtain ⟨hcrash, hends⟩ :=
    ((Identity.loadOrCreate_survives hserde htmp publicUrl).map Ending.started).sound hsession
  have hstarted : ∀ identity, outcome = some (.started (.ok identity)) → ∃ keys bytes,
      Identity.new prim keys publicUrl = .ok identity ∧ disk' path.text = some bytes ∧
        Keys.ofBytes prim scalar serde bytes = .ok keys := by
    rintro identity rfl
    obtain ⟨result, hresult, hpost⟩ := hends _ rfl
    exact hpost identity (Ending.started.inj hresult).symm
  have hnotRotated : outcome ≠ some (.rotated (.ok ())) := by
    rintro rfl
    obtain ⟨result, hresult, -⟩ := hends _ rfl
    cases hresult
  -- the file is as it was, or the keys were created where none were held
  rcases hcrash with hsame | ⟨hmissing, keys, hvalid, hnew⟩
  · have hkept : Holds prim scalar serde path held disk' := ⟨hsame.trans hholds.1, hholds.2⟩
    refine ⟨held, .kept held _ (fun identity hidentity => ?_) hnotRotated, hkept⟩
    obtain ⟨keys, bytes, hmade, hbytes, hread⟩ := hstarted identity hidentity
    exact ⟨keys, publicUrl, hkept.eq_some hserde hbytes hread, rfl, hmade⟩
  · have hnone : held = none := by
      rw [← Option.isNone_iff_eq_none, ← Option.not_isSome, hholds.isSome_eq,
        hmissing.resolve_right hseen]
      rfl
    subst hnone
    have hfresh := Holds.some hvalid hnew
    refine ⟨some keys, .created keys publicUrl calls outcome hvalid
      (fun identity hidentity => ?_) hnotRotated, hfresh⟩
    obtain ⟨keys', bytes, hmade, hbytes, hread⟩ := hstarted identity hidentity
    obtain rfl := Option.some_inj.mp (hfresh.eq_some hserde hbytes hread)
    exact hmade

/-- So is a rotation. -/
theorem rotate_step (htmp : path.extension ≠ some "tmp")
    (hholds : Holds prim scalar serde path held disk) {calls : List (Call Files)}
    {outcome : Option Ending} (hsession : Program.Attempts (Disk.Answers scalar hidden)
      (Command.program prim scalar serde path .rotateKeys) disk calls outcome disk') :
    ∃ held', HeldStep prim scalar held ⟨.rotateKeys, calls, outcome⟩ held' ∧
      Holds prim scalar serde path held' disk' := by
  obtain ⟨hcrash, hends⟩ := ((@Identity.rotate_survives prim scalar serde path disk hidden htmp).map
    Ending.rotated).sound hsession
  have hkept : disk' path.text = disk path.text → (∀ result, outcome ≠ some (.started result)) →
      outcome ≠ some (.rotated (.ok ())) → ∃ held',
        HeldStep prim scalar held ⟨.rotateKeys, calls, outcome⟩ held' ∧
        Holds prim scalar serde path held' disk' := fun hsame hnotStarted hnotRotated =>
    ⟨held, .kept held _ (fun _ h => absurd h (hnotStarted _)) hnotRotated,
      hsame.trans hholds.1, hholds.2⟩
  have hreplaced : (disk path.text).isSome → HasKeys prim scalar serde path disk' →
      (∀ ending ∈ outcome, ending = .rotated (.ok ())) → ∃ held',
        HeldStep prim scalar held ⟨.rotateKeys, calls, outcome⟩ held' ∧
          Holds prim scalar serde path held' disk' := by
    rintro hsome ⟨keys, hvalid, hnew⟩ houtcome
    obtain ⟨old, rfl⟩ := Option.isSome_iff_exists.mp (hholds.isSome_eq.trans hsome)
    exact ⟨some keys, .replaced old keys calls outcome hvalid houtcome, Holds.some hvalid hnew⟩
  -- a session that was cut may have replaced the keys or not; one that ended says which
  cases outcome with
  | none =>
    rcases hcrash with hsame | ⟨hsome, hhas⟩
    · exact hkept hsame (by simp) (by simp)
    · exact hreplaced hsome hhas (by simp)
  | some ending =>
    obtain ⟨result, rfl, hok, herror⟩ := hends ending rfl
    cases result with
    | ok u => exact hreplaced (hok rfl).1 (hok rfl).2 (by simp)
    | error failure => exact hkept (herror failure rfl) (by simp) (by simp)

/-- The sessions of mediators on one key file are steps of what is held, as long as the file is not
hidden. -/
theorem key_file_refines (hserde : ∀ file, serde.fromSlice (serde.toVec file) = .ok file)
    (htmp : path.extension ≠ some "tmp") (hseen : path.text ∉ hidden)
    (hholds : Holds prim scalar serde path held disk)
    (hrun : Transition.Run (Sessions (Disk.Answers scalar hidden)
      (Command.program prim scalar serde path)) disk sessions disk') :
    ∃ held', Transition.Run (HeldStep prim scalar) held sessions held' ∧
      Holds prim scalar serde path held' disk' := by
  refine Sessions.simulate hholds (fun held disk session disk' hholds hsession => ?_) hrun
  obtain ⟨task, calls, outcome⟩ := session
  cases task with
  | start publicUrl => exact start_step hserde htmp hseen hholds hsession
  | rotateKeys => exact rotate_step htmp hholds hsession

/-- A rotation that is killed, or succeeds. -/
def Rotates (session : KeySession) : Prop :=
  session.task = .rotateKeys ∧ ∀ failure, session.outcome ≠ some (.rotated (.error failure))

/-- A start that comes to an identity. -/
def Starts (publicUrl : String) (identity : Identity) (session : KeySession) : Prop :=
  session.task = .start publicUrl ∧ session.outcome = some (.started (.ok identity))

/-- The identity that a start comes to is of the keys that are held then. -/
theorem HeldStep.starts {publicUrl : String} {identity : Identity}
    (h : HeldStep prim scalar held session held') (hstarts : Starts publicUrl identity session) :
    ∃ keys, held' = some keys ∧ Identity.new prim keys publicUrl = .ok identity := by
  obtain ⟨htask, houtcome⟩ := hstarts
  cases h with
  | kept _ _ hidentity hrotated =>
    obtain ⟨keys, publicUrl', rfl, htask', hmade⟩ := hidentity identity houtcome
    obtain rfl := Command.start.inj (htask.symm.trans htask')
    exact ⟨keys, rfl, hmade⟩
  | created keys publicUrl' calls outcome hvalid hidentity hrotated =>
    obtain rfl := Command.start.inj htask
    exact ⟨keys, rfl, hidentity identity houtcome⟩
  | replaced => cases htask

/-- Keys that are held stay, but for rotations. -/
theorem HeldStep.keeps (h : HeldStep prim scalar (some keys) session held')
    (hrotates : ¬ Rotates session) : held' = some keys := by
  cases h with
  | kept => rfl
  | replaced _ keys' calls outcome hvalid houtcome =>
    exact absurd ⟨rfl, fun failure hfailed => by cases houtcome _ hfailed⟩ hrotates

/-- So they do over any sessions. -/
theorem HeldStep.keeps_run (hrotates : ∀ session ∈ sessions, ¬ Rotates session)
    (hrun : Transition.Run (HeldStep prim scalar) (some keys) sessions held') :
    held' = some keys := by
  induction hrun with
  | nil => rfl
  | snoc _ hlast ih =>
    obtain rfl := ih fun session hsession => hrotates session (List.mem_append_left _ hsession)
    exact hlast.keeps (hrotates _ (by simp))

/-- The identities of two starts are of the same keys, when no rotation came between them. -/
theorem same_keys {earlier between later : List KeySession} {first second : KeySession}
    {publicUrl publicUrl' : String} {identity identity' : Identity}
    (hrun : Transition.Run (HeldStep prim scalar) held
      (earlier ++ first :: (between ++ second :: later)) held')
    (hfirst : Starts publicUrl identity first) (hsecond : Starts publicUrl' identity' second)
    (hrotates : ∀ session ∈ between, ¬ Rotates session) :
    ∃ keys, Identity.new prim keys publicUrl = .ok identity ∧
      Identity.new prim keys publicUrl' = .ok identity' := by
  obtain ⟨_, held₁, -, hstep₁, hrest⟩ := hrun.middle_inv
  obtain ⟨held₂, held₃, hbetween, hstep₂, -⟩ := hrest.middle_inv
  obtain ⟨keys, rfl, hmade⟩ := hstep₁.starts hfirst
  obtain rfl := HeldStep.keeps_run hrotates hbetween
  have hnotRotates : ¬ Rotates second := fun h => by cases hsecond.1.symm.trans h.1
  obtain ⟨keys', hheld, hmade'⟩ := hstep₂.starts hsecond
  rw [hstep₂.keeps hnotRotates, Option.some.injEq] at hheld
  exact ⟨keys, hmade, hheld ▸ hmade'⟩

/-- A key file that is missing or has keys stays so, wherever a process stops. -/
theorem Command.keeps_intact (hserde : ∀ file, serde.fromSlice (serde.toVec file) = .ok file)
    (htmp : path.extension ≠ some "tmp") (command : Command)
    (h : KeysIntact prim scalar serde path disk) :
    (command.program prim scalar serde path).Survives (Disk.Answers scalar hidden)
      (KeysIntact prim scalar serde path) (fun _ _ => True) disk := by
  -- a file that stays as it was stays intact
  have hsame : ∀ t : Disk, t path.text = disk path.text → KeysIntact prim scalar serde path t := by
    intro t hsame
    refine h.imp (fun hnone => hsame.trans hnone) ?_
    rintro ⟨keys, hvalid, hkeys⟩
    exact ⟨keys, hvalid, hsame.trans hkeys⟩
  cases command with
  | start publicUrl =>
    refine ((Identity.loadOrCreate_survives hserde htmp publicUrl).map Ending.started).mono ?_
      fun _ _ _ _ => trivial
    rintro t (hkept | ⟨-, hnew⟩)
    · exact hsame t hkept
    · exact .inr hnew
  | rotateKeys =>
    refine ((@Identity.rotate_survives prim scalar serde path disk hidden htmp).map
      Ending.rotated).mono ?_ fun _ _ _ _ => trivial
    rintro t (hkept | ⟨-, hnew⟩)
    · exact hsame t hkept
    · exact .inr hnew

/-- On a key file that is missing or has keys, after any starts and rotations, whatever calls of
theirs failed and wherever they were killed: the key file is missing or can be read. If it can
always be seen, any two starts that come to an identity without a rotation between them, one that is
killed included, come to it with the same keys. -/
theorem identity_kept (hserde : ∀ file, serde.fromSlice (serde.toVec file) = .ok file)
    (htmp : path.extension ≠ some "tmp")
    (hstart : KeysIntact prim scalar serde path disk)
    (hrun : Transition.Run
      (Sessions (Disk.Answers scalar hidden) (Command.program prim scalar serde path)) disk
      sessions disk') :
    (∀ bytes, disk' path.text = some bytes →
      ∃ keys, Keys.ofBytes prim scalar serde bytes = .ok keys) ∧
    (path.text ∉ hidden → ∀ earlier between later first second publicUrl publicUrl' identity
      identity', sessions = earlier ++ first :: (between ++ second :: later) →
      Starts publicUrl identity first → Starts publicUrl' identity' second →
      (∀ session ∈ between, ¬ Rotates session) →
      ∃ keys, Identity.new prim keys publicUrl = .ok identity ∧
        Identity.new prim keys publicUrl' = .ok identity') := by
  constructor
  · intro bytes hbytes
    have hend := Sessions.invariant hstart
      (fun command t => Command.keeps_intact hserde htmp command) hrun
    rcases hend with hnone | ⟨keys, hvalid, hkeys⟩
    · rw [hnone] at hbytes
      cases hbytes
    · obtain rfl := Option.some.inj (hkeys.symm.trans hbytes)
      exact ⟨keys, Keys.ofBytes_toBytes hserde hvalid⟩
  -- while the path is seen the sessions refine those of the held keys
  · intro hseen earlier between later first second publicUrl publicUrl' identity identity' hsessions
      hfirst hsecond hrotates
    have hholds : ∃ held, Holds prim scalar serde path held disk := by
      rcases hstart with hnone | ⟨keys, hvalid, hkeys⟩
      · exact ⟨none, hnone, by simp⟩
      · exact ⟨some keys, Holds.some hvalid hkeys⟩
    obtain ⟨held, hholds⟩ := hholds
    obtain ⟨held', habstract, -⟩ := key_file_refines hserde htmp hseen hholds hrun
    rw [hsessions] at habstract
    exact same_keys habstract hfirst hsecond hrotates

end

namespace KeyFileExample

def path : FilePath := ⟨"", "keys", some "json"⟩

/-- The file that the keys are written to first. -/
def tmp : String := (path.withExtension "tmp").text

/-- Scalars by their length. -/
def scalar (curve : Curve) (bytes : Bytes) : Bool := bytes.length == curve.fieldLen

def ofKeyFile (file : KeyFile) : Value :=
  .array [Transparent.ofJwk file.ed25519, Transparent.ofJwk file.x25519,
    Transparent.ofJwk file.p384]

def keyFile : Value → Option KeyFile
  | .array [ed25519, x25519, p384] => do
    pure ⟨← Transparent.jwk ed25519, ← Transparent.jwk x25519, ← Transparent.jwk p384⟩
  | _ => none

abbrev serde : Serde KeyFile := Transparent.serde ofKeyFile keyFile

/-- The serializer of the example reads back what it writes. -/
theorem fromSlice_toVec (file : KeyFile) : serde.fromSlice (serde.toVec file) = .ok file :=
  Transparent.readText_write (by simp [keyFile, ofKeyFile, Transparent.jwk, Transparent.ofJwk])

abbrev made : Keys := IdentityExample.made

/-- What the key file of these keys has. -/
def bytes : Bytes := made.toBytes Transparent.packages serde

/-- The keys of the example are valid. -/
theorem valid_made : made.Valid scalar := ⟨by decide, by decide, by decide⟩

/-- The commands of the binary on this key file. -/
abbrev program : Command → Program Files Ending :=
  Command.program Transparent.packages scalar serde path

variable {disk : Disk}

/-- Every file can be seen. -/
abbrev answers : Program.Environment Files Disk := Disk.Answers scalar ∅

def drawn (key : SecretKey) : Call Files := ⟨.generate key.curve, .ok ⟨key, rfl⟩⟩

/-- A key may be drawn at once. -/
theorem answers_drawn {key : SecretKey} (hne : key.curve ≠ .p521)
    (hvalid : SecretKey.fromBytes scalar key.curve key.bytes = .ok key) :
    answers disk (drawn key) disk := by
  refine .generate disk key.curve [key.bytes] ⟨key, rfl⟩ ?_
  rw [SecretKey.generate, if_neg hne]
  simp only [hvalid]

/-- The calls of a start that makes keys, up to the writing of them. -/
def making : List (Call Files) :=
  [⟨.exists_ path.text, false⟩, drawn made.ed25519, drawn made.x25519, drawn made.p384,
    ⟨.openTruncate tmp, .ok ()⟩]

/-- What they leave. -/
def opened (disk : Disk) : Disk := Function.update disk tmp (some [])

/-- A start may be killed when it has written one byte. -/
theorem killed (hnone : disk path.text = none) (publicUrl : String) :
    Sessions answers program disk
      ⟨.start publicUrl, making ++ [⟨.writeAll tmp bytes, .error ""⟩], none⟩
      ((opened disk).append tmp (bytes.take 1)) := by
  refine .call (.missing disk _ (.inl hnone)) ?_
  refine .call (answers_drawn (by decide) valid_made.ed25519) ?_
  refine .call (answers_drawn (by decide) valid_made.x25519) ?_
  refine .call (answers_drawn (by decide) valid_made.p384) ?_
  refine .call (.openTruncate disk tmp) ?_
  refine .call (.writeFailed _ tmp "" _ _ (List.take_prefix 1 bytes)) ?_
  exact .stop

/-- The file system after keys were written. -/
def written (disk : Disk) : Disk := ((opened disk).append tmp bytes).move tmp path.text

/-- The key file has the keys then. -/
theorem written_path : written disk path.text = some bytes := by
  have hne : tmp ≠ path.text := by decide
  rw [written, Disk.move_target hne, Disk.append_self, opened, Function.update_self,
    Option.map_some, List.nil_append]

/-- A start may make the keys at once. -/
theorem created {identity : Identity} {publicUrl : String}
    (h : Identity.new Transparent.packages made publicUrl = .ok identity)
    (hnone : disk path.text = none) :
    Sessions answers program disk
      ⟨.start publicUrl, making ++ [⟨.writeAll tmp bytes, .ok ()⟩, ⟨.rename tmp path.text, .ok ()⟩],
        some (.started (.ok identity))⟩ (written disk) := by
  have hsome : ((opened disk).append tmp bytes tmp).isSome := by simp [opened]
  -- the path is not there: three keys are drawn, written aside and renamed
  refine .call (.missing disk _ (.inl hnone)) ?_
  refine .call (answers_drawn (by decide) valid_made.ed25519) ?_
  refine .call (answers_drawn (by decide) valid_made.x25519) ?_
  refine .call (answers_drawn (by decide) valid_made.p384) ?_
  refine .call (.openTruncate disk tmp) ?_
  refine .call (.writeAll _ tmp bytes) ?_
  refine .call (.rename _ tmp path.text hsome) ?_
  have hdone : (Identity.new Transparent.packages made publicUrl).mapError Failure.didcomm =
      .ok identity := mapError_eq_ok.mpr h
  change Program.Attempts answers (.done (Ending.started
    ((Identity.new Transparent.packages made publicUrl).mapError Failure.didcomm))) _ _ _ _
  rw [hdone]
  exact .done

/-- A rotation fails when there are no random numbers. -/
theorem failed (hsome : disk path.text = some bytes) (error : Error) :
    Sessions answers program disk ⟨.rotateKeys,
      [⟨.exists_ path.text, true⟩, ⟨.generate .ed25519, .error error⟩],
        some (.rotated (.error (.didcomm error)))⟩ disk := by
  refine .call (.found disk _ bytes hsome) ?_
  refine .call (.generateFailed disk .ed25519 error) ?_
  exact .done

/-- A start reads the keys that are there. -/
theorem reads {prim : Primitives} {scalar : Curve → Bytes → Bool} {serde : Serde KeyFile}
    {path : FilePath} {hidden : Set String} {keys : Keys} {bytes : Bytes} {identity : Identity}
    {publicUrl : String} (hread : Keys.ofBytes prim scalar serde bytes = .ok keys)
    (h : Identity.new prim keys publicUrl = .ok identity) (hsome : disk path.text = some bytes) :
    Sessions (Disk.Answers scalar hidden) (Command.program prim scalar serde path) disk
      ⟨.start publicUrl, [⟨.exists_ path.text, true⟩, ⟨.read path.text, .ok bytes⟩],
        some (.started (.ok identity))⟩ disk := by
  -- the path is there and is read
  refine .call (.found disk _ bytes hsome) ?_
  refine .call (.read disk _ bytes hsome) ?_
  have hdone : (Identity.new prim keys publicUrl).mapError Failure.didcomm = .ok identity :=
    mapError_eq_ok.mpr h
  change Program.Attempts _
    ((withContext ("reading mediator keys from " ++ path.text)
      (given (Keys.ofBytes prim scalar serde bytes)) >>= fun keys =>
        given ((Identity.new prim keys publicUrl).mapError Failure.didcomm)).run >>= fun result =>
          pure (Ending.started result)) _ _ _ _
  rw [hread]
  change Program.Attempts _ (.done (Ending.started
    ((Identity.new prim keys publicUrl).mapError Failure.didcomm))) _ _ _ _
  rw [hdone]
  exact .done

end KeyFileExample

/-- A start that is killed, one that makes the keys, a rotation that fails and a start elsewhere. -/
theorem identity_kept_killed :
    ∃ (sessions : List KeySession) (disk : Disk) (identity identity' : Identity),
      Transition.Run (Sessions KeyFileExample.answers KeyFileExample.program) (fun _ => none)
        sessions disk ∧
      (∃ session ∈ sessions, session.task = .start "https://b.example" ∧
        session.outcome = none) ∧
      (∃ session ∈ sessions, Starts "https://b.example" identity session) ∧
      (∃ session ∈ sessions, Starts "https://c.example" identity' session) ∧
      (∀ bytes, disk KeyFileExample.path.text = some bytes → ∃ keys,
        Keys.ofBytes Transparent.packages KeyFileExample.scalar KeyFileExample.serde bytes =
          .ok keys) ∧
      ∃ keys, Identity.new Transparent.packages keys "https://b.example" = .ok identity ∧
        Identity.new Transparent.packages keys "https://c.example" = .ok identity' := by
  obtain ⟨identity, h, -⟩ := IdentityExample.identity_eq_ok
  have hdid : didFromOrigin "https://c.example" = .ok "did:web:c.example" := by decide +kernel
  obtain ⟨identity', h'⟩ : ∃ identity',
      Identity.new Transparent.packages KeyFileExample.made "https://c.example" = .ok identity' :=
    ⟨_, bind_eq_ok.mpr ⟨_, hdid, rfl⟩⟩
  have hne : KeyFileExample.tmp ≠ KeyFileExample.path.text := by decide
  have hnone : ((KeyFileExample.opened fun _ => none).append KeyFileExample.tmp
      (KeyFileExample.bytes.take 1)) KeyFileExample.path.text = none := by
    rw [Disk.append_of_ne hne.symm, KeyFileExample.opened, Function.update_of_ne hne.symm]
  have hsome := @KeyFileExample.written_path ((KeyFileExample.opened fun _ => none).append
    KeyFileExample.tmp (KeyFileExample.bytes.take 1))
  have hread : Keys.ofBytes Transparent.packages KeyFileExample.scalar KeyFileExample.serde
      KeyFileExample.bytes = .ok KeyFileExample.made :=
    Keys.ofBytes_toBytes KeyFileExample.fromSlice_toVec KeyFileExample.valid_made
  have hkilled := @KeyFileExample.killed (fun _ => none) rfl "https://b.example"
  have hcreated := KeyFileExample.created h hnone
  have hfailed := KeyFileExample.failed hsome (.crypto "rng")
  have hreads := @KeyFileExample.reads _ _ KeyFileExample.scalar _ _ ∅ _ _ _ _ hread h' hsome
  -- a start is killed while it writes, one creates the keys, a rotation fails, and one reads them
  have hrun := (((Transition.Run.nil.snoc hkilled).snoc hcreated).snoc hfailed).snoc hreads
  refine ⟨_, _, identity, identity', hrun, ⟨_, List.mem_cons_self, rfl, rfl⟩,
    ⟨_, List.mem_cons_of_mem _ List.mem_cons_self, rfl, rfl⟩,
    ⟨_, List.mem_append_right _ List.mem_cons_self, rfl, rfl⟩, ?_⟩
  have hkept := identity_kept KeyFileExample.fromSlice_toVec (by decide) (.inl rfl) hrun
  refine hkept.imp_right fun hsame => ?_
  refine hsame (Set.notMem_empty _) [_] [_] [] _ _ _ _ _ _ rfl ⟨rfl, rfl⟩ ⟨rfl, rfl⟩ ?_
  rintro session hsession ⟨-, hends⟩
  obtain rfl := List.mem_singleton.mp hsession
  exact hends _ rfl

end Dispatch
