import DocComments.FileName
import DocComments.Scan.JavaScript
import DocComments.Scan.Python

/-! Extraction of definitions from source text. -/
namespace DocComments
open Text

def grammarOf : Language → Grammar
  | .python => Scan.Python.grammar
  | .javaScript => Scan.JavaScript.grammar

def scannerOf (language : Language) : Scanner :=
  (grammarOf language).scan

/-- The definitions that a scanner finds. Those found before a failure count. -/
def extractWith (scanner : Scanner) (source : String) : List Definition :=
  (scanner (linesOf source)).found

/-- The definitions that a scanner finds, unless it fails. -/
def tryExtractWith (scanner : Scanner) (source : String) : Except ScanError (List Definition) :=
  let scan := scanner (linesOf source)
  match scan.failure with
  | some failure => .error failure
  | none => .ok scan.found

def extract (language : Language) (source : String) : List Definition :=
  extractWith (scannerOf language) source

/-- `extract`, reporting a scan that failed. -/
def tryExtract (language : Language) (source : String) : Except ScanError (List Definition) :=
  tryExtractWith (scannerOf language) source

inductive FileError where
  /-- The name tells no supported language. -/
  | unsupported (path : String)
  /-- The file is missing or holds no text. -/
  | unreadable
  deriving DecidableEq, Repr

/-- The definitions in a file, given its name and its bytes if it is there. The name is looked at
first. -/
def extractFile (path : String) (bytes : Option ByteArray) : Except FileError (List Definition) :=
  match FileName.language? path with
  | none => .error (.unsupported path)
  | some language =>
    match bytes.bind String.fromUTF8? with
    | none => .error .unreadable
    | some source => .ok (extract language source)

end DocComments
