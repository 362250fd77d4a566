import Std.Async.DNS
import Std.Async.TCP
import Std.Async.Timer
import MeterLink.Client.Link
import MeterLink.CommandLine.Usage

/-!
# The program

The outer layer. It finds the settings file, reads the clocks, carries dialogues over sockets and
prints; what is to be done and said is decided by the library.
-/

namespace MeterLink.Program

open Std.Async Std.Net

/-- What the operating system says of a failure: its number, if it has one, and its text. -/
def systemText : IO.Error → Option UInt32 × String
  | .alreadyExists _ code details => (some code, details)
  | .otherError code details => (some code, details)
  | .resourceBusy code details => (some code, details)
  | .resourceVanished code details => (some code, details)
  | .unsupportedOperation code details => (some code, details)
  | .hardwareFault code details => (some code, details)
  | .unsatisfiedConstraints code details => (some code, details)
  | .illegalOperation code details => (some code, details)
  | .protocolError code details => (some code, details)
  | .timeExpired code details => (some code, details)
  | .interrupted _ code details => (some code, details)
  | .noFileOrDirectory _ code details => (some code, details)
  | .invalidArgument _ code details => (some code, details)
  | .permissionDenied _ code details => (some code, details)
  | .resourceExhausted _ code details => (some code, details)
  | .inappropriateType _ code details => (some code, details)
  | .noSuchThing _ code details => (some code, details)
  | .unexpectedEof => (none, "unexpected end of file")
  | .userError message => (none, message)

/-- The wording of a failure of the operating system. Its numbers also come with a minus. -/
def wording (e : IO.Error) : String :=
  match systemText e with
  | (some code, details) =>
    let code := if code < 0x80000000 then code else 0 - code
    s!"{details.capitalize} (os error {code})"
  | (none, details) => details

/-! ## Sockets -/

def socketFault (e : IO.Error) : SocketFault :=
  match e with
  | .timeExpired .. => ⟨.timedOut, wording e⟩
  | _ => ⟨.other, wording e⟩

/-- A socket at work: it may fail in a phase. -/
abbrev SocketM := ExceptT (Phase × SocketFault) IO

/-- The longest time that a timer is set to, in milliseconds. -/
def longestWait : Nat := 0x7fffffff

/-- Does something that must not take longer than so many seconds. -/
def within (seconds : UInt64) (phase : Phase) (late : SocketFault) {α : Type} (action : Async α) :
    SocketM α := do
  let limit := Std.Time.Millisecond.Offset.ofNat (min longestWait (1000 * seconds.toNat))
  let race : Async (Option α) :=
    Async.race (some <$> action) (do Std.Async.sleep limit; return none)
  match ← (race.block.toBaseIO : BaseIO _) with
  | .ok (some a) => return a
  | .ok none => throw (phase, late)
  | .error e => throw (phase, socketFault e)

/-- The addresses of a host, which may be given as an address. -/
def addresses (host : String) : SocketM (List IPAddr) := do
  match IPv4Addr.ofString host, IPv6Addr.ofString host with
  | some a, _ => return [.v4 a]
  | none, some a => return [.v6 a]
  | none, none =>
    match ← ((DNS.getAddrInfo host "").block.toBaseIO : BaseIO _) with
    | .ok found => return found.toList
    | .error e =>
      throw (.connect, ⟨.other, "failed to lookup address information: " ++ (systemText e).2⟩)

def connectTo (s : Settings) (address : IPAddr) : SocketM TCP.Socket.Client := do
  let socket ← TCP.Socket.Client.mk
  let address : SocketAddress :=
    match address with
    | .v4 a => .v4 ⟨a, s.meter.port⟩
    | .v6 a => .v6 ⟨a, s.meter.port⟩
  within s.transport.connectTimeout .connect ⟨.timedOut, "connection timed out"⟩
    (socket.connect address)
  socket.noDelay
  return socket

/-- Connects to the first address that lets it; the last failure is the one that counts. -/
def connectToAny (s : Settings) (last : Phase × SocketFault) :
    List IPAddr → SocketM TCP.Socket.Client
  | [] => throw last
  | address :: rest => tryCatch (connectTo s address) fun e => connectToAny s e rest

/-- Sends a request on a connection of its own and reads the answer once. -/
def converse (host : String) (s : Settings) (request : Bytes) : SocketM Bytes := do
  let nowhere : SocketFault := ⟨.other, "host resolved to no addresses"⟩
  let silent : SocketFault := ⟨.wouldBlock, "Resource temporarily unavailable (os error 11)"⟩
  let socket ← connectToAny s (.connect, nowhere) (← addresses host)
  within s.transport.ioTimeout .send silent (socket.send ⟨request.toArray⟩)
  let reply ← within s.transport.ioTimeout .receive silent
    (socket.recv? s.transport.bufferSize)
  return (reply.getD .empty).toList

/-- One exchange with a meter. -/
def exchange (host : String) (s : Settings) (request : Bytes) : IO Exchange := do
  let name := endpoint host s.meter.port
  let started ← IO.monoNanosNow
  let e ←
    if host.contains '\x00' then pure (SocketEvent.unusableName.exchange name 0 0)
    else
      match ← (converse host s request).run with
      | .ok reply => pure (Exchange.answered reply)
      | .error (phase, fault) => pure (Exchange.failed name phase fault)
  return { e with took := (← IO.monoNanosNow) - started }

/-- Carries a dialogue over sockets. -/
def perform {α : Type} (host : String) (s : Settings) : Dialogue α → IO α
  | .done a => return a
  | .exchange request next => do
    let e ← exchange host s request
    perform host s (next e)
  | .waitUntil time next => do
    let now ← IO.monoNanosNow
    let left := (time - now + nanosPerMilli - 1) / nanosPerMilli
    if now < time then IO.sleep (UInt32.ofNat (min longestWait left))
    perform host s (next (max time (← IO.monoNanosNow)))

/-! ## Files and the environment -/

/-- The text of a file, or why it cannot be read. -/
def readText (path : String) : IO (Except String String) := do
  match ← (IO.FS.readBinFile path).toBaseIO with
  | .ok content =>
    match String.fromUTF8? content with
    | some text => return .ok text
    | none => return .error "stream did not contain valid UTF-8"
  | .error e => return .error (wording e)

/-- The settings file: the one that a person named, or one that lies beside the program or in the
current directory. -/
def settingsFile (named : Option String) : IO (Option SettingsFile) := do
  match named <|> (← IO.getEnv "EMOP_CONFIG") with
  | some path => return some ⟨path, true, ← readText path⟩
  | none =>
    let beside := (← IO.appPath).parent.toList
    for directory in beside ++ [← IO.currentDir] do
      let path := directory / "emop.toml"
      if ← path.pathExists then
        return some ⟨path.toString, false, ← readText path.toString⟩
    return none

/-- What the environment says of the settings. -/
def environment : IO (String → Option String) := do
  let values ← ["EMLITE_HOST", "EMLITE_PORT", "EMLITE_TIMEOUT_SECONDS"].mapM fun name => do
    return (name, ← IO.getEnv name)
  return fun name => (values.lookup name).join

def currentInstant : IO Instant := do
  let now := (← Std.Time.Timestamp.now).toNanosecondsSinceUnixEpoch.val
  return ⟨now / 1000000000, (now % 1000000000).toNat⟩

/-- Writes warnings to the log, if its level has them. -/
def logWarnings (level : String) (warnings : List String) : IO Unit := do
  if level ≠ "off" ∧ level ≠ "error" then
    for warning in warnings do
      IO.eprintln s!"{Timestamp.withZulu (← currentInstant)}  WARN {warning}"

/-! ## Invocations -/

/-- Does what a person asked for. -/
def invoke (invocation : CommandLine.Invocation) : IO (Except Failure Json) := do
  match Settings.load (← settingsFile invocation.config) (← environment) with
  | .error e => return .error e
  | .ok loaded =>
    logWarnings (logLevel loaded.settings.logging.level invocation.verbosity) loaded.warnings
    match invocation.task (← currentInstant) loaded.settings with
    | .error e => return .error e
    | .ok (.print result) => return .ok result
    | .ok (.talk host s call) =>
      let line : Line := ⟨endpoint host s.meter.port, s.transactions⟩
      return (← perform host s (call line {})).1

end MeterLink.Program

open MeterLink in
/-- Runs the program and gives its exit code. -/
def main (args : List String) : IO UInt32 := do
  let outcome ←
    match CommandLine.parse args with
    | .ok invocation => do pure (CommandLine.Outcome.ofResult (← Program.invoke invocation))
    | .error fault => pure (CommandLine.Outcome.ofFault fault)
  IO.print outcome.output
  if let some complaint := outcome.complaint then
    IO.eprintln s!"error: {complaint}"
  return UInt32.ofNat outcome.exitCode
