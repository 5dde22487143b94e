import LineFollower.Camera.OpenCv
import LineFollower.Host

/-!
# Finding the line by rows

`CenterFinding.cpp`, as far as `main` uses it. On each of `numOfPoints` evenly
spaced rows of the binary frame the centre is the mean column of the row's
white pixels. The cutting points are set and never read.
-/

namespace LineFollower

open Lib

structure CenterFinding (Mat : Type) where
  sourceFrame : Mat
  outputFrame : Mat
  numOfPoints : ℤ
  max_kernel_size : ℤ
  scaleFactor : ℚ
  deriving DecidableEq

namespace CenterFinding

variable {Mat : Type} (cv : OpenCv Mat)

def new (numOfPoints : ℤ) : CenterFinding Mat :=
  { sourceFrame := cv.noMat, outputFrame := cv.noMat, numOfPoints, max_kernel_size := 21
    scaleFactor := 1 / 2 }

def setFrame (self : CenterFinding Mat) (frame : Mat) : CenterFinding Mat :=
  { self with sourceFrame := frame, outputFrame := frame }

def setScaleFactor (self : CenterFinding Mat) (scaleFactor : ℚ) : CenterFinding Mat :=
  { self with scaleFactor }

def scaleImage (self : CenterFinding Mat) : Except Fault (CenterFinding Mat) := do
  let outputFrame ← call
      (cv.resize self.outputFrame ⟨0, 0⟩ self.scaleFactor self.scaleFactor interCubic)
  let sourceFrame ← call
      (cv.resize self.sourceFrame ⟨0, 0⟩ self.scaleFactor self.scaleFactor interCubic)
  return { self with outputFrame, sourceFrame }

def setOutput (self : CenterFinding Mat) (frame : Cv Mat) : Except Fault (CenterFinding Mat) := do
  let outputFrame ← call frame
  return { self with outputFrame }

def toGrayScale (self : CenterFinding Mat) : Except Fault (CenterFinding Mat) :=
  setOutput self (cv.cvtColor self.outputFrame colorRgb2Gray)

def erodeFrame (self : CenterFinding Mat) (element : Mat) : Except Fault (CenterFinding Mat) :=
  setOutput self (cv.erode self.outputFrame element)

def dilateFrame (self : CenterFinding Mat) (element : Mat) : Except Fault (CenterFinding Mat) :=
  setOutput self (cv.dilate self.outputFrame element)

def thresholdFrame (self : CenterFinding Mat) : Except Fault (CenterFinding Mat) :=
  setOutput self (cv.threshold self.outputFrame 127 255 threshBinaryInv)

/-- `frame.at<uchar>(row, column)`, which is not checked. -/
def pixelAt (frame : Mat) (row column : ℤ) : Except Fault ℕ :=
  if 0 ≤ row ∧ row < cv.rows frame ∧ 0 ≤ column ∧ column < cv.cols frame then
    .ok (cv.pixel frame row column)
  else .error .indexOutOfRange

def intSum (n : ℤ) : Except Fault ℤ := if FitsInt n then .ok n else .error .overflow

def whitePixels (frame : Mat) (row : ℤ) : Except Fault (ℤ × ℤ) :=
  (List.range (cv.cols frame).toNat).foldlM
    (fun (sum, whitePixelCounter) j => do
      if (← pixelAt cv frame row j) = 255 then
        return (← intSum (sum + j), ← intSum (whitePixelCounter + 1))
      else return (sum, whitePixelCounter))
    (0, 0)

/-- `outputFrame.rows/(numOfPoints+1)` -/
def spaceWidth (self : CenterFinding Mat) : Except Fault ℤ := do
  let strips ← intSum (self.numOfPoints + 1)
  if strips = 0 then .error .divisionByZero
  else return (cv.rows self.outputFrame).tdiv strips

def findCenters (self : CenterFinding Mat) : Except Fault (List Point) := do
  let spaceWidth ← spaceWidth cv self
  -- The counter ends at `numOfPoints + 1`, and no row is below the frame.
  (List.range self.numOfPoints.toNat).foldlM
    (fun centers i => do
      let row := (i + 1) * spaceWidth
      let (sum, whitePixelCounter) ← whitePixels cv self.outputFrame row
      if whitePixelCounter ≠ 0 then return centers ++ [⟨sum.tdiv whitePixelCounter, row⟩]
      else return centers)
    []

def findLineCenters (self : CenterFinding Mat) :
    Except Fault (List Point × CenterFinding Mat) := do
  let self ← scaleImage cv self
  let self ← toGrayScale cv self
  let kernel : ℤ := 2 * self.max_kernel_size + 1
  let element ← call (cv.getStructuringElement morphRect ⟨kernel, kernel⟩
    ⟨self.max_kernel_size, self.max_kernel_size⟩)
  let self ← erodeFrame cv self element
  let self ← dilateFrame cv self element
  let self ← thresholdFrame cv self
  return (← findCenters cv self, self)

/-- `centers[i].x/centers.size()`, a division of `size_t`s. -/
def share (host : Host) (x : ℤ) (size : ℕ) : ℤ := x % 2 ^ host.longBits / size

def drawCenters (host : Host) (size : ℕ) : Mat → ℚ → List Point → Except Fault (Mat × ℚ)
  | frame, mean, [] => return (frame, mean)
  | frame, mean, center :: centers => do
    let frame ← call (cv.line frame ⟨0, center.y⟩ ⟨cv.cols frame, center.y⟩ ⟨0, 255, 0⟩ 1)
    let frame ← call (cv.circle frame center 5 ⟨0, 0, 255⟩ (-1) 8)
    drawCenters host size frame (mean + share host center.x size) centers

def drawPoints (host : Host) (self : CenterFinding Mat) (centers : List Point) :
    Except Fault Mat := do
  let (frame, mean) ← drawCenters cv host centers.length self.sourceFrame 0 centers
  call (cv.line frame ⟨trunc mean, 0⟩ ⟨trunc mean, cv.rows frame⟩ ⟨0, 0, 255⟩ 2)

end CenterFinding

end LineFollower
