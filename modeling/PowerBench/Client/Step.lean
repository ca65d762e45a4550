import PowerBench.Client

/-!
# Operations as data

A caller works with a client step by step. A step is an operation with its parameters; whether it
ends with a result or with an error, the next one is free to follow.
-/

set_option autoImplicit false

namespace PowerBench.Client

/-- An operation of the client with its parameters; the last is a call with any tokens and limit. -/
inductive Step where
  | start (name : String) (rate : Nat)
  | stop (name : String)
  | archive (name : String) (dest : Path)
  | csv (channels : List String) (name : String) (dest : Path)
  | addMarkers (name : String) (markers : List (Timestamp × String))
  | metrics (name : String) (start? stop? : Option Timestamp)
  | channels (name : String)
  | trace (dest : Path) (name pattern : String)
  | listDevices
  | monitor (action : MonitorAction)
  | run (tokens : List String) (limit : Duration)
deriving Repr

inductive Given where
  | nothing
  | text (output : String)
  | report (r : Report)
  | names (channels : List String)
  | samples (count : Nat)
deriving Repr

variable {σ : Type}

def perform (c : Client σ) : Step → Operation σ Given
  | .start name rate => (fun _ => .nothing) <$> c.start name rate
  | .stop name => (fun _ => .nothing) <$> c.stop name
  | .archive name dest => (fun _ => .nothing) <$> c.archive name dest
  | .csv channels name dest => (fun _ => .nothing) <$> c.csv channels name dest
  | .addMarkers name markers => (fun _ => .nothing) <$> c.addMarkers name markers
  | .metrics name start? stop? => .report <$> c.metrics name start? stop?
  | .channels name => .names <$> c.channels name
  | .trace dest name pattern => .samples <$> c.trace dest name pattern
  | .listDevices => .text <$> c.listDevices
  | .monitor action => .text <$> c.monitor action
  | .run tokens limit => .text <$> c.run tokens limit

/-- Performs steps one after the other and gives what each came to. -/
def performAll (c : Client σ) : List Step → Session σ → List (Except ClientError Given) × Session σ
  | [], s => ([], s)
  | step :: rest, s =>
    let (result, after) := c.perform step s
    let (results, last) := c.performAll rest after
    (result :: results, last)

end PowerBench.Client
