import JustWeather.Machinery.Search
import JustWeather.Machinery.Framing
import JustWeather.Machinery.Trace
import JustWeather.Machinery.Wire
import JustWeather.Machinery.Chain
import JustWeather.Machinery.Keyed
import JustWeather.Machinery.Component
import JustWeather.Machinery.Compass
import JustWeather.Machinery.Parameters
import JustWeather.CLib.Strings
import JustWeather.CLib.Scanf
import JustWeather.Lib.TcpClient
import JustWeather.Lib.TcpServer
import JustWeather.Lib.EndOfHeaders
import JustWeather.Lib.Smw
import JustWeather.Lib.HttpServerConnection
import JustWeather.Lib.HttpServerConnection.Steps
import JustWeather.Lib.HttpServerConnection.Bounds
import JustWeather.Lib.HttpClient
import JustWeather.Lib.HttpClient.Bounds
import JustWeather.Lib.ReadBounds
import JustWeather.Lib.HttpServerConnection.Segmentation
import JustWeather.Lib.HttpServerConnection.Lifecycle
import JustWeather.Lib.HeadLines
import JustWeather.Lib.HttpClient.Decoding
import JustWeather.Server.WeatherServerInstance
import JustWeather.Machinery.Fallible
import JustWeather.CLib.Heap
import JustWeather.CLib.Memory
import JustWeather.Lib.LinkedList
import JustWeather.Lib.LinkedList.Refinement
import JustWeather.Lib.Smw.Pass
import JustWeather.Lib.Smw.Destroying
import JustWeather.Lib.HttpClient.Work
import JustWeather.Lib.HttpClient.Completion
import JustWeather.Lib.HttpClient.Release
import JustWeather.Lib.Cache
import JustWeather.Lib.Cache.History
import JustWeather.CLib.Jansson
import JustWeather.Server.OpenMeteoApi
import JustWeather.Server.OpenMeteoApi.UnusableCache
import JustWeather.Server.OpenMeteoApi.ResponseFormat
import JustWeather.Server.OpenMeteoHandler.Freshness
import JustWeather.Server.OpenMeteoHandler.Provenance
import JustWeather.Server.OpenMeteoHandler.Query
import JustWeather.Server.OpenMeteoHandler.Sparing
import JustWeather.Server.OpenMeteoHandler.Survival
import JustWeather.Server.OpenMeteoApi.Progress
import JustWeather.Server.OpenMeteoApi.CacheHit
import JustWeather.Server.OpenMeteoApi.WindDirection
import JustWeather.RoundTrip.Completing
import JustWeather.RoundTrip.Exchange
import JustWeather.RoundTrip.Weather
import JustWeather.RoundTrip.Request
import JustWeather.RoundTrip.Response
import JustWeather.Server.OpenMeteoApi.Worlds
import JustWeather.Lib.HttpClient.Sameness
import JustWeather.Lib.HttpClient.Prepared
import JustWeather.Lib.HttpClient.Progress
import JustWeather.Lib.HttpClient.Start
import JustWeather.Lib.HttpServerConnection.Frame
import JustWeather.Server.WeatherServer
import JustWeather.Server.WeatherServer.Accept
import JustWeather.Server.WeatherServer.Instances
import JustWeather.Server.WeatherServerInstance.Failures
import JustWeather.Server.HashMd5
import JustWeather.Server.HashMd5.Standard
import JustWeather.Server.OpenMeteoHandler.CacheKeys
import JustWeather.CLib.Blocks
import JustWeather.CLib.Footprint
import JustWeather.Lib.HttpClient.ParseUrl
import JustWeather.Lib.HttpClient.Sending
import JustWeather.Lib.HttpServerConnection.RequestLine
import JustWeather.Server.WeatherServerInstance.Fits
import JustWeather.Server.WeatherServerInstance.Echo
import JustWeather.Machinery.JsonText
import JustWeather.Server.WeatherServerInstance.NotFound
import JustWeather.Lib.HttpClient.EndOfStream
import JustWeather.Lib.HttpClient.Telling
import JustWeather.Lib.HttpClient.Timeout
import JustWeather.Lib.HeaderFields
import JustWeather.Lib.HeaderLookup
import JustWeather.Lib.Cache.Capacity
import JustWeather.Server.OpenMeteoApi.Readers
import JustWeather.Server.OpenMeteoApi.Blocks
import JustWeather.Server.WeatherServer.StartUp
import JustWeather.Server.WeatherService
import JustWeather.Lib.HttpServerConnection.Plain
import JustWeather.Server.WeatherServer.Isolation
import JustWeather.Server.WeatherServer.Progress
import JustWeather.Server.WeatherServer.Serving
import JustWeather.Server.WeatherServer.Holdings
import JustWeather.Server.WeatherServer.ShutDown
import JustWeather.Lib.HttpServerConnection.Faults
import JustWeather.Server.WeatherServer.Alike
import JustWeather.Server.WeatherServer.MainLoop
import JustWeather.Server.WeatherServer.Passes
import JustWeather.Server.WeatherServer.Draining
