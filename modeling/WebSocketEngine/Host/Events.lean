import WebSocketEngine.Host.Basic

/-!
Events at the handler of a host.

The handler answers each frame, and the opening, through a token.  An assembler answers for all that
the application does not see: PING and PONG, CLOSE, and the fragments before the last one.  Where
the application asks for frames itself, it also gives back the unit of demand that such a frame cost,
except for a CLOSE, after which nothing comes.

    PING, PONG           the application looks on; success; one unit back
    CLOSE                success
    fragment             success; one unit back
    last frame           the application decides, through a token derived from the frame's
    refused              failure

A crash of the application drops the token and leaves the rest undone.
-/

namespace WebSocketEngine.Host

/-- The application asks for frames itself. -/
def demanding (app : Application σ) (h : Host σ) : Bool :=
  match h.handler with
  | .assembling _ => h.session.config.demanding
  | .direct => app.demands h.memory

/-- A session was opened on the handler. -/
def attached (h : Host σ) : Bool :=
  match h.handler with
  | .assembling a => a.attached
  | .direct => false

/-- Gives back the unit of demand of a frame that the application does not see. -/
def giveBack (h : Host σ) : Host σ :=
  if h.session.config.demanding && h.attached then h.grant 1 else h

/-- Calls the application if it has installed a callback for this. -/
def callIf (app : Application σ) (h : Host σ) (installed : Bool) (c : Call) : Host σ × Reply :=
  if installed then h.call app c else (h, .succeed)

def opened (app : Application σ) (h : Host σ) (t : Ticket) : Host σ × Option Panic :=
  let h := h.note (.handed .opened)
  match h.handler with
  | .direct =>
    let (h, reply) := h.call app .opened
    h.answer t reply
  | .assembling a =>
    match h.callIf app app.hooks.onOpen .opened with
    | (h, .panic p) => (h.drop t, some p)
    | (h, _) => ({ h with handler := .assembling a.opened }.resolve t (.ok ()), none)

/-- What an assembler's verdict on a frame means for its token. -/
def settleFrame (app : Application σ) (h : Host σ) (f : Frame) (t : Ticket) :
    Assembly.Verdict → Host σ × Option Panic
  | .control =>
    match h.callIf app app.hooks.onControl (.control f) with
    | (h, .panic p) => (h.drop t, some p)
    | (h, _) => ((h.resolve t (.ok ())).giveBack, none)
  | .ended => (h.resolve t (.ok ()), none)
  | .taken => ((h.resolve t (.ok ())).giveBack, none)
  | .complete m =>
    if app.hooks.handles m.kind then
      let (h, reply) := h.call app (.message m)
      h.answer (.derived t) reply
    else (h.resolve (.derived t) (.error (Assembly.Assembler.unsupported m.kind)), none)
  | .refused e => (h.resolve t (.error e), none)

def frame (app : Application σ) (h : Host σ) (f : Frame) (t : Ticket) : Host σ × Option Panic :=
  let h := h.note (.handed (.frame f))
  match h.handler with
  | .direct =>
    let (h, reply) := h.call app (.frame f)
    h.answer t reply
  | .assembling a =>
    let (a, lines, verdict) := a.step app.hooks h.session.config f
    (lines.foldl log { h with handler := .assembling a }).settleFrame app f t verdict

/-- What becomes of an assembler when the connection ends. -/
def endAssembly (h : Host σ) (f : Assembly.Assembler → Assembly.Assembler) : Host σ :=
  match h.handler with
  | .assembling a => { h with handler := .assembling (f a) }
  | .direct => h

/-- The crash in a reply, if it is one. -/
def crash? : Reply → Option Panic
  | .panic p => some p
  | .succeed | .fail _ | .drop | .hold => none

def failed (app : Application σ) (h : Host σ) (e : Failure) : Host σ × Option Panic :=
  let h := (h.note (.handed (.failed e))).endAssembly (·.failed)
  let (h, reply) := h.callIf app app.hooks.onError (.failed e)
  (h, crash? reply)

def closed (app : Application σ) (h : Host σ) (code : CloseCode) : Host σ × Option Panic :=
  let h := (h.note (.handed (.closed code))).endAssembly (·.ended)
  let (h, reply) := h.callIf app app.hooks.onClosed (.closed code)
  (h, crash? reply)

end WebSocketEngine.Host
